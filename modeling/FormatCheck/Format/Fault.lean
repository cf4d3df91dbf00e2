import FormatCheck.Code
import FormatCheck.Format.Conversion
import FormatCheck.Text.Escaped

/-! # Faults of a format text -/

namespace FormatCheck

/-- What is wrong with a specifier. -/
inductive Fault where
  | unknownConversion (found : Option Char)
  | unknownDateSuffix (found : Option Char)
  | invalidIndex (digits : String)
  | numberTooLarge (digits : String)
  | duplicateFlag (flag : Char)
  | flagNotApplicable (flag : Char) (conversion : Conversion)
  | exclusiveFlags (first second : Char)
  | precisionNotAllowed (conversion : Conversion)
  | missingWidth (flag : Char)
  | widthNotAllowed (conversion : Conversion)
deriving DecidableEq

namespace Fault

def code : Fault → Code
  | unknownConversion _ => .unknownConversion
  | unknownDateSuffix _ => .unknownDateSuffix
  | invalidIndex _ | numberTooLarge _ => .invalidNumber
  | duplicateFlag _ => .duplicateFlag
  | flagNotApplicable .. => .flagNotApplicable
  | exclusiveFlags .. => .exclusiveFlags
  | precisionNotAllowed _ => .precisionNotAllowed
  | missingWidth _ => .missingWidth
  | widthNotAllowed _ => .widthNotAllowed

/-- What stands where a conversion should, with control characters escaped. -/
def foundText : Option Char → String
  | some c => "`" ++ String.ofList (Text.escapeChar c) ++ "`"
  | none => "end of string"

def message : Fault → String
  | unknownConversion found => "unknown format conversion: found " ++ foundText found
  | unknownDateSuffix found =>
      "unknown date/time conversion: found " ++ foundText found ++ " after `t`"
  | invalidIndex digits => "invalid argument index `" ++ digits ++ "$`"
  | numberTooLarge digits => "number `" ++ digits ++ "` is too large"
  | duplicateFlag flag => "flag `" ++ flag.toString ++ "` is repeated"
  | flagNotApplicable flag conversion =>
      "flag `" ++ flag.toString ++ "` cannot be used with `%" ++ conversion.text ++ "`"
  | exclusiveFlags first second =>
      "flags `" ++ first.toString ++ "` and `" ++ second.toString ++ "` cannot be combined"
  | precisionNotAllowed conversion =>
      "precision is not allowed for `%" ++ conversion.text ++ "`"
  | missingWidth flag => "flag `" ++ flag.toString ++ "` requires a width"
  | widthNotAllowed conversion => "width is not allowed for `%" ++ conversion.text ++ "`"

/-- A short text to stand beside the specifier. -/
def label : Fault → String
  | unknownConversion _ => "unknown conversion"
  | unknownDateSuffix _ => "unknown date/time suffix"
  | invalidIndex _ => "invalid index"
  | numberTooLarge _ => "number too large"
  | duplicateFlag _ => "duplicate flag"
  | flagNotApplicable .. => "flag not applicable"
  | exclusiveFlags .. => "conflicting flags"
  | precisionNotAllowed _ => "precision not allowed"
  | missingWidth _ => "width required"
  | widthNotAllowed _ => "width not allowed"

/-- Whether a character would be a conversion after a `t`. -/
def isDateSuffix (c : Char) : Bool :=
  (DateField.ofChar? c).isSome

/-- Advice for the faults that have a usual cause. -/
def hint? : Fault → Option String
  | unknownConversion none => some "a literal percent sign is written `%%`"
  | unknownConversion (some c) =>
      if isDateSuffix c then
        some "date/time fields are written with the `t` prefix, as in `%tY`"
      else none
  | invalidIndex _ => some "argument indices start at `1$`"
  | missingWidth _ => some "add a width, as in `%-10s`"
  | exclusiveFlags .. => some "remove one of the flags"
  | _ => none

end Fault

end FormatCheck
