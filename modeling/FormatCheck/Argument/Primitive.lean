/-! # Primitive types -/

namespace FormatCheck

/-- The primitive types that an argument can have. -/
inductive Primitive where
  | boolean
  | byte
  | char
  | short
  | int
  | long
  | float
  | double
deriving DecidableEq

namespace Primitive

def all : List Primitive :=
  [boolean, byte, char, short, int, long, float, double]

theorem mem_all (primitive : Primitive) : primitive ∈ all := by
  cases primitive <;> decide

/-- The letter that stands for the type in a signature. -/
def code : Primitive → Char
  | boolean => 'Z'
  | byte => 'B'
  | char => 'C'
  | short => 'S'
  | int => 'I'
  | long => 'J'
  | float => 'F'
  | double => 'D'

def ofCode? (c : Char) : Option Primitive :=
  all.find? (·.code == c)

@[simp] theorem ofCode?_code (primitive : Primitive) : ofCode? primitive.code = some primitive := by
  cases primitive <;> decide

theorem ofCode?_eq_some_iff {c : Char} {primitive : Primitive} :
    ofCode? c = some primitive ↔ primitive.code = c := by
  constructor
  · intro h
    simpa using List.find?_some h
  · rintro rfl
    exact ofCode?_code primitive

/-- The keyword for the type in source text. -/
def name : Primitive → String
  | boolean => "boolean"
  | byte => "byte"
  | char => "char"
  | short => "short"
  | int => "int"
  | long => "long"
  | float => "float"
  | double => "double"

def ofName? (name : String) : Option Primitive :=
  all.find? (·.name == name)

@[simp] theorem ofName?_name (primitive : Primitive) : ofName? primitive.name = some primitive := by
  cases primitive <;> decide

theorem ofName?_eq_some_iff {name : String} {primitive : Primitive} :
    ofName? name = some primitive ↔ primitive.name = name := by
  constructor
  · intro h
    simpa using List.find?_some h
  · rintro rfl
    exact ofName?_name primitive

/-- The class whose objects hold values of the type when they are passed on. -/
def wrapper : Primitive → String
  | boolean => "java/lang/Boolean"
  | byte => "java/lang/Byte"
  | char => "java/lang/Character"
  | short => "java/lang/Short"
  | int => "java/lang/Integer"
  | long => "java/lang/Long"
  | float => "java/lang/Float"
  | double => "java/lang/Double"

end Primitive

end FormatCheck
