import FormatCheck.Format.Flag
import FormatCheck.Format.Conversion
import FormatCheck.Text.Decimal

/-! # Specifiers -/

namespace FormatCheck

/-- How a specifier names its argument: by position, as the one before, or as the
next one in order. -/
inductive Index where
  | explicit (position : UInt32)
  | relative
  | implicit
deriving DecidableEq

def Index.chars : Index → List Char
  | explicit position => Decimal.digits position.toNat ++ ['$']
  | relative => ['<']
  | implicit => []

/-- One `%` unit of a format text. -/
structure Specifier where
  index : Index
  flags : Flags
  width : Option UInt32
  precision : Option UInt32
  conversion : Conversion
  uppercase : Bool
deriving DecidableEq

namespace Specifier

def readsArgument (specifier : Specifier) : Bool :=
  specifier.conversion.readsArgument

/-- The conversion as written: upper case changes its first character only. -/
def conversionChars (specifier : Specifier) : List Char :=
  let first := specifier.conversion.toChar
  (if specifier.uppercase then first.toUpper else first) :: specifier.conversion.suffix

def widthChars : Option UInt32 → List Char
  | some width => Decimal.digits width.toNat
  | none => []

def precisionChars : Option UInt32 → List Char
  | some precision => '.' :: Decimal.digits precision.toNat
  | none => []

/-- The canonical text of a specifier, with its flags in their printed order. -/
def chars (specifier : Specifier) : List Char :=
  '%' :: specifier.index.chars ++ specifier.flags.chars ++ widthChars specifier.width
    ++ precisionChars specifier.precision ++ specifier.conversionChars

def text (specifier : Specifier) : String :=
  String.ofList specifier.chars

end Specifier

end FormatCheck
