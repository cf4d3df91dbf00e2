/-! # Codes of failures -/

namespace FormatCheck

/-- The classes of failures: of the format text, of the number of arguments, and
of their types. -/
inductive Code where
  | unknownConversion
  | unknownDateSuffix
  | invalidNumber
  | duplicateFlag
  | flagNotApplicable
  | exclusiveFlags
  | precisionNotAllowed
  | missingWidth
  | widthNotAllowed
  | missingArgument
  | noPreviousArgument
  | extraArguments
  | incompatibleType
  | arrayArgument
  | invalidSignature
deriving DecidableEq

namespace Code

/-- All codes, in numeric order. -/
def all : List Code :=
  [unknownConversion, unknownDateSuffix, invalidNumber, duplicateFlag, flagNotApplicable,
    exclusiveFlags, precisionNotAllowed, missingWidth, widthNotAllowed, missingArgument,
    noPreviousArgument, extraArguments, incompatibleType, arrayArgument, invalidSignature]

def text : Code → String
  | unknownConversion => "E0001"
  | unknownDateSuffix => "E0002"
  | invalidNumber => "E0003"
  | duplicateFlag => "E0004"
  | flagNotApplicable => "E0005"
  | exclusiveFlags => "E0006"
  | precisionNotAllowed => "E0007"
  | missingWidth => "E0008"
  | widthNotAllowed => "E0009"
  | missingArgument => "E1001"
  | noPreviousArgument => "E1002"
  | extraArguments => "E1003"
  | incompatibleType => "E2001"
  | arrayArgument => "E2002"
  | invalidSignature => "E2003"

/-- Finds a code by its text in either case. No letter outside ASCII has one of the
codes' characters for its capital, so ASCII capitals are enough. -/
def ofText? (text : String) : Option Code :=
  let upper := String.ofList (text.toList.map Char.toUpper)
  all.find? (·.text == upper)

/-- The place of a code among all of them. -/
def ordinal (code : Code) : Nat :=
  all.idxOf code

end Code

end FormatCheck
