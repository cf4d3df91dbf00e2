import FormatCheck.Argument.Signature

/-! # Groups of interchangeable types -/

namespace FormatCheck

/-- What the values of a type can be printed as. -/
inductive Group where
  | boxedInteger
  | bigInteger
  | charCode
  | epochMillis
  | boxedFloat
  | bigDecimal
  | character
  | boolean
  | calendar
  | date
deriving DecidableEq

namespace Group

def name : Group → String
  | boxedInteger => "BOXED_INTEGER"
  | bigInteger => "BIG_INTEGER"
  | charCode => "CHAR_CODE"
  | epochMillis => "EPOCH_MILLIS"
  | boxedFloat => "BOXED_FLOAT"
  | bigDecimal => "BIG_DECIMAL"
  | character => "CHARACTER"
  | boolean => "BOOLEAN"
  | calendar => "CALENDAR"
  | date => "DATE"

/-- The weight of a group in a set of groups written as a number. -/
def bit : Group → Nat
  | boxedInteger => 1
  | bigInteger => 2
  | charCode => 4
  | epochMillis => 8
  | boxedFloat => 16
  | bigDecimal => 32
  | character => 64
  | boolean => 128
  | calendar => 256
  | date => 512

/-- A set of groups written as a number. -/
def bits (groups : List Group) : Nat :=
  groups.foldr (fun group n => group.bit + n) 0

/-- The classes that belong to a group, with their groups. -/
def classes : List (String × List Group) :=
  [("java/lang/Byte", [boxedInteger, charCode]),
    ("java/lang/Short", [boxedInteger, charCode]),
    ("java/lang/Integer", [boxedInteger, charCode]),
    ("java/lang/Long", [boxedInteger, epochMillis]),
    ("java/math/BigInteger", [bigInteger]),
    ("java/lang/Float", [boxedFloat]),
    ("java/lang/Double", [boxedFloat]),
    ("java/math/BigDecimal", [bigDecimal]),
    ("java/lang/Character", [character]),
    ("java/lang/Boolean", [boolean]),
    ("java/util/Calendar", [calendar]),
    ("java/util/GregorianCalendar", [calendar]),
    ("java/util/Date", [date]),
    ("java/sql/Date", [date]),
    ("java/sql/Time", [date]),
    ("java/sql/Timestamp", [date])]

def ofClass (className : String) : List Group :=
  (classes.lookup className).getD []

end Group

/-- The groups of a type; primitive types share those of their wrappers. -/
def Scalar.groups (scalar : Scalar) : List Group :=
  Group.ofClass scalar.className

/-- The groups of a type; arrays belong to none. -/
def DeclaredType.groups (type : DeclaredType) : List Group :=
  if type.isArray then [] else type.element.groups

/-- The groups of the type that a signature stands for. -/
def Signature.groups (signature : Signature) : List Group :=
  (signature.type?.map DeclaredType.groups).getD []

end FormatCheck
