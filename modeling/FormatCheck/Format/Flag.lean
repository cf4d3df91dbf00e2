/-! # Flags of a specifier -/

namespace FormatCheck

/-- What a flag character asks for. -/
inductive Flag where
  | leftJustify
  | alternate
  | plus
  | leadingSpace
  | zeroPad
  | group
  | parentheses
deriving DecidableEq

namespace Flag

/-- All flags, in the order in which they are printed. -/
def all : List Flag :=
  [leftJustify, alternate, plus, leadingSpace, zeroPad, group, parentheses]

theorem mem_all (flag : Flag) : flag ∈ all := by
  cases flag <;> decide

def toChar : Flag → Char
  | leftJustify => '-'
  | alternate => '#'
  | plus => '+'
  | leadingSpace => ' '
  | zeroPad => '0'
  | group => ','
  | parentheses => '('

def ofChar? (c : Char) : Option Flag :=
  all.find? (·.toChar == c)

@[simp] theorem ofChar?_toChar (flag : Flag) : ofChar? flag.toChar = some flag := by
  cases flag <;> decide

theorem ofChar?_eq_some_iff {c : Char} {flag : Flag} :
    ofChar? c = some flag ↔ flag.toChar = c := by
  constructor
  · intro h
    simpa using List.find?_some h
  · rintro rfl
    exact ofChar?_toChar flag

/-- The weight of a flag in a set of flags written as a number. -/
def bit : Flag → Nat
  | leftJustify => 1
  | alternate => 2
  | plus => 4
  | leadingSpace => 8
  | zeroPad => 16
  | group => 32
  | parentheses => 64

end Flag

/-! ## Sets of flags -/

/-- A set of flags. -/
structure Flags where
  leftJustify : Bool := false
  alternate : Bool := false
  plus : Bool := false
  leadingSpace : Bool := false
  zeroPad : Bool := false
  group : Bool := false
  parentheses : Bool := false
deriving DecidableEq

namespace Flags

def empty : Flags := {}

def contains (flags : Flags) : Flag → Bool
  | .leftJustify => flags.leftJustify
  | .alternate => flags.alternate
  | .plus => flags.plus
  | .leadingSpace => flags.leadingSpace
  | .zeroPad => flags.zeroPad
  | .group => flags.group
  | .parentheses => flags.parentheses

/-- Makes a flag a member or not. -/
def set (flags : Flags) (flag : Flag) (present : Bool) : Flags :=
  match flag with
  | .leftJustify => { flags with leftJustify := present }
  | .alternate => { flags with alternate := present }
  | .plus => { flags with plus := present }
  | .leadingSpace => { flags with leadingSpace := present }
  | .zeroPad => { flags with zeroPad := present }
  | .group => { flags with group := present }
  | .parentheses => { flags with parentheses := present }

def insert (flags : Flags) (flag : Flag) : Flags :=
  flags.set flag true

def erase (flags : Flags) (flag : Flag) : Flags :=
  flags.set flag false

def toggle (flags : Flags) (flag : Flag) : Flags :=
  flags.set flag (!flags.contains flag)

theorem contains_set (flags : Flags) (flag other : Flag) (present : Bool) :
    (flags.set flag present).contains other =
      if other = flag then present else flags.contains other := by
  cases flag <;> cases other <;> rfl

@[simp] theorem contains_empty (flag : Flag) : empty.contains flag = false := by
  cases flag <;> rfl

theorem contains_insert (flags : Flags) (flag other : Flag) :
    (flags.insert flag).contains other = (other == flag || flags.contains other) := by
  by_cases h : other = flag <;> simp [insert, contains_set, h]

theorem ext_contains {flags others : Flags}
    (h : ∀ flag, flags.contains flag = others.contains flag) : flags = others := by
  obtain ⟨_, _, _, _, _, _, _⟩ := flags
  obtain ⟨_, _, _, _, _, _, _⟩ := others
  have h₁ := h .leftJustify
  have h₂ := h .alternate
  have h₃ := h .plus
  have h₄ := h .leadingSpace
  have h₅ := h .zeroPad
  have h₆ := h .group
  have h₇ := h .parentheses
  simp only [contains] at h₁ h₂ h₃ h₄ h₅ h₆ h₇
  simp [h₁, h₂, h₃, h₄, h₅, h₆, h₇]

/-- The members, in the order in which they are printed. -/
def toList (flags : Flags) : List Flag :=
  Flag.all.filter flags.contains

def ofList (members : List Flag) : Flags :=
  members.foldl insert empty

@[simp] theorem mem_toList {flags : Flags} {flag : Flag} :
    flag ∈ flags.toList ↔ flags.contains flag = true := by
  simp [toList, Flag.mem_all]

def chars (flags : Flags) : List Char :=
  flags.toList.map Flag.toChar

def text (flags : Flags) : String :=
  String.ofList flags.chars

/-- The set written as a number, one bit for each member. -/
def bits (flags : Flags) : Nat :=
  flags.toList.foldr (fun flag n => flag.bit + n) 0

/-- The character of a set with exactly one member. -/
def char? (flags : Flags) : Option Char :=
  match flags.toList with
  | [flag] => some flag.toChar
  | _ => none

end Flags

end FormatCheck
