import FormatCheck.Argument.Group
import FormatCheck.Format.Conversion

/-! # Families of conversions -/

namespace FormatCheck

/-- Conversions that accept the same arguments. -/
inductive Family where
  | integral
  | floating
  | hexFloating
  | character
  | boolean
  | dateTime
  | general
deriving DecidableEq

namespace Family

def all : List Family :=
  [integral, floating, hexFloating, character, boolean, dateTime, general]

def name : Family → String
  | integral => "integral"
  | floating => "floating-point"
  | hexFloating => "hexadecimal floating-point"
  | character => "character"
  | boolean => "boolean"
  | dateTime => "date/time"
  | general => "general"

/-- The groups that the family accepts; the general family accepts every type that
is not an array. -/
def groups? : Family → Option (List Group)
  | integral => some [.boxedInteger, .bigInteger]
  | floating => some [.boxedFloat, .bigDecimal]
  | hexFloating => some [.boxedFloat]
  | character => some [.character, .charCode]
  | boolean => some [.boolean]
  | dateTime => some [.calendar, .date, .epochMillis]
  | general => none

/-- The accepted types in words. -/
def types : Family → String
  | integral => "byte, short, int, long, their wrappers or BigInteger"
  | floating => "float, double, their wrappers or BigDecimal"
  | hexFloating => "float, double or their wrappers"
  | character => "char, byte, short, int or their wrappers"
  | boolean => "boolean or java.lang.Boolean"
  | dateTime => "long, Long, java.util.Calendar or java.util.Date"
  | general => "any non-array type"

def accepts (family : Family) (scalar : Scalar) : Bool :=
  match family.groups? with
  | none => true
  | some groups => scalar.groups.any groups.contains

end Family

/-- The family of a conversion that reads an argument. -/
def Conversion.family? : Conversion → Option Family
  | decimal | octal | hex => some .integral
  | scientific | fixed | general => some .floating
  | hexFloat => some .hexFloating
  | character => some .character
  | boolean => some .boolean
  | dateTime _ => some .dateTime
  | string | hashCode => some .general
  | percent | lineSeparator => none

theorem Conversion.isSome_family? (conversion : Conversion) :
    conversion.family?.isSome = conversion.readsArgument := by
  cases conversion <;> rfl

theorem Conversion.exists_family {conversion : Conversion} (h : conversion.readsArgument = true) :
    ∃ family, conversion.family? = some family := by
  rw [← Option.isSome_iff_exists, isSome_family?, h]

/-! ## Mismatches -/

/-- Why a family rejects an argument. -/
inductive Mismatch where
  | array
  | incompatible
  | invalid
deriving DecidableEq

def Mismatch.text : Mismatch → String
  | array => "array argument"
  | incompatible => "incompatible type"
  | invalid => "invalid descriptor"

/-- Why a family rejects the argument with a signature, if it does. -/
def Signature.mismatch? (signature : Signature) (family : Family) : Option Mismatch :=
  match signature.type? with
  | none => some .invalid
  | some type =>
      if type.isArray then some .array
      else if family.accepts type.element then none
      else some .incompatible

/-! ## Suggestions -/

/-- The most specific conversion for types with the given groups. -/
def Conversion.forGroups (groups : List Group) : Conversion :=
  if groups.contains .boxedInteger || groups.contains .bigInteger then .decimal
  else if groups.contains .boxedFloat || groups.contains .bigDecimal then .fixed
  else if groups.contains .character then .character
  else if groups.contains .boolean then .boolean
  else if groups.contains .calendar || groups.contains .date then .dateTime .dateAndTime
  else .string

/-- A conversion that accepts the argument; there is none for arrays and for
signatures that stand for no type. -/
def Signature.suggestion? (signature : Signature) : Option Conversion := do
  let type ← signature.type?
  guard !type.isArray
  return .forGroups type.element.groups

end FormatCheck
