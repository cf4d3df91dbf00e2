import FormatCheck.Format.Fault
import FormatCheck.Format.Specifier

/-! # Rules for flags, width and precision

A specifier that breaks a rule of its conversion fails for every argument. -/

namespace FormatCheck

namespace Conversion

/-- Whether the conversion fails with a flag, whatever its argument is. -/
def rejects : Conversion → Flag → Bool
  | boolean, flag | hashCode, flag | character, flag | dateTime _, flag => flag ≠ .leftJustify
  | string, flag => flag ≠ .leftJustify && flag ≠ .alternate
  | decimal, flag | general, flag => flag = .alternate
  | octal, flag | hex, flag | scientific, flag => flag = .group
  | hexFloat, flag => flag = .group || flag = .parentheses
  | fixed, _ => false
  | percent, flag => flag ≠ .leftJustify
  | lineSeparator, _ => true

def allowsPrecision : Conversion → Bool
  | boolean | hashCode | string | scientific | fixed | general | hexFloat => true
  | _ => false

end Conversion

namespace Specifier

/-- The first rule that a specifier breaks. -/
def fault? (specifier : Specifier) : Option Fault :=
  let conversion := specifier.conversion
  let flags := specifier.flags
  if specifier.precision.isSome && !conversion.allowsPrecision then
    some (.precisionNotAllowed conversion)
  else if conversion = .lineSeparator && specifier.width.isSome then
    some (.widthNotAllowed conversion)
  else if let some flag := flags.toList.find? conversion.rejects then
    some (.flagNotApplicable flag.toChar conversion)
  else if specifier.index = .relative && !conversion.readsArgument then
    some (.flagNotApplicable '<' conversion)
  else if specifier.width.isNone && flags.leftJustify then
    some (.missingWidth Flag.leftJustify.toChar)
  else if specifier.width.isNone && flags.zeroPad then
    some (.missingWidth Flag.zeroPad.toChar)
  else if flags.plus && flags.leadingSpace then
    some (.exclusiveFlags Flag.plus.toChar Flag.leadingSpace.toChar)
  else if flags.leftJustify && flags.zeroPad then
    some (.exclusiveFlags Flag.leftJustify.toChar Flag.zeroPad.toChar)
  else
    none

end Specifier

end FormatCheck
