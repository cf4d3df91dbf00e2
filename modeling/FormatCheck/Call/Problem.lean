import FormatCheck.Argument.Family
import FormatCheck.Call.Tracker
import FormatCheck.Format.Fault

/-! # Problems of a call -/

namespace FormatCheck

def Missing.text : Missing → String
  | outOfRange position supplied =>
      "argument " ++ Decimal.text position.toNat ++ " is referenced but only "
        ++ Decimal.text supplied ++ (if supplied = 1 then " is" else " are") ++ " supplied"
  | noPrevious => "`<` has no previous argument to refer to"

/-- Why a call fails. -/
inductive Problem where
  | malformed (fault : Fault)
  | missing (reason : Missing)
  | mismatch (specifier : Specifier) (position : UInt32) (expected : Family)
      (actual : Signature) (reason : Mismatch)
  | extra (supplied : Nat) (referenced : UInt32)
deriving DecidableEq

namespace Problem

def code : Problem → Code
  | malformed fault => fault.code
  | missing (.outOfRange ..) => .missingArgument
  | missing .noPrevious => .noPreviousArgument
  | mismatch _ _ _ _ .incompatible => .incompatibleType
  | mismatch _ _ _ _ .array => .arrayArgument
  | mismatch _ _ _ _ .invalid => .invalidSignature
  | extra .. => .extraArguments

def message : Problem → String
  | malformed fault => fault.message
  | missing reason => "missing format argument: " ++ reason.text
  | mismatch specifier position _ actual reason =>
      "`" ++ specifier.text ++ "` cannot format argument " ++ Decimal.text position.toNat
        ++ " of type " ++ actual.sourceText ++ ": " ++ reason.text
  | extra supplied referenced =>
      Decimal.text supplied ++ " arguments supplied but only "
        ++ Decimal.text referenced.toNat ++ " used"

end Problem

end FormatCheck
