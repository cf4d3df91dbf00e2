import FormatCheck.Format.Input
import FormatCheck.Format.Rules

/-! # Reading a specifier -/

namespace FormatCheck

/-- A reader consumes input and returns a value or stops at a fault; either way it
tells how far it came. -/
abbrev Reader := EStateM Fault Input

/-! ## Flags and the relative mark -/

/-- What may stand between the index and the width. -/
inductive Mark where
  | flag (flag : Flag)
  | relative
deriving DecidableEq

def Mark.ofChar? (c : Char) : Option Mark :=
  if c = '<' then some .relative else (Flag.ofChar? c).map .flag

/-- The marks of one specifier. -/
structure Marks where
  flags : Flags := .empty
  relative : Bool := false
deriving DecidableEq

namespace Marks

def contains (marks : Marks) : Mark → Bool
  | .flag flag => marks.flags.contains flag
  | .relative => marks.relative

def insert (marks : Marks) : Mark → Marks
  | .flag flag => { marks with flags := marks.flags.insert flag }
  | .relative => { marks with relative := true }

/-- Reads marks in any order up to the first other character or the first repetition. -/
def readFrom (marks : Marks) (offset : Nat) : List Char → EStateM.Result Fault Input Marks
  | [] => .ok marks ⟨offset, []⟩
  | c :: rest =>
      match Mark.ofChar? c with
      | none => .ok marks ⟨offset, c :: rest⟩
      | some mark =>
          if marks.contains mark then .error (.duplicateFlag c) ⟨offset + c.utf8Size, rest⟩
          else (marks.insert mark).readFrom (offset + c.utf8Size) rest

end Marks

/-! ## The parts of a specifier -/

namespace Reader

def next : Reader (Option Char) := fun input =>
  match input.next? with
  | some (c, after) => .ok (some c) after
  | none => .ok none input

/-- What is still to be read. -/
def lookahead : Reader (List Char) := fun input =>
  .ok input.rest input

def takeWhile (p : Char → Bool) : Reader (List Char) := fun input =>
  let (run, after) := input.takeWhile p
  .ok run after

/-- A position and `$`, or nothing. Digits that no `$` follows are left to be read
as flags and width. -/
def index : Reader Index := fun input =>
  match input.takeWhile Char.isDigit with
  | (d :: digits, ⟨offset, '$' :: rest⟩) =>
      match (Decimal.word? (d :: digits)).filter (· ≠ 0) with
      | some position => .ok (.explicit position) ⟨offset + '$'.utf8Size, rest⟩
      | none => .error (.invalidIndex (String.ofList (d :: digits))) ⟨offset + '$'.utf8Size, rest⟩
  | _ => .ok .implicit input

def marks : Reader Marks := fun input =>
  ({} : Marks).readFrom input.offset input.rest

/-- A run of digits, or nothing. -/
def number : Reader (Option UInt32) := do
  let digits ← takeWhile Char.isDigit
  if digits.isEmpty then
    return none
  match Decimal.word? digits with
  | some n => return some n
  | none => throw (.numberTooLarge (String.ofList digits))

/-- A point and digits, or nothing. A point that no digit follows is not read. -/
def precision : Reader (Option UInt32) := do
  match ← lookahead with
  | '.' :: d :: _ =>
      if d.isDigit then
        let _ ← next
        number
      else
        return none
  | _ => return none

/-- A conversion and whether it is written in upper case. -/
def conversion : Reader (Conversion × Bool) := do
  match ← next with
  | none => throw (.unknownConversion none)
  | some c =>
      if c = 't' ∨ c = 'T' then
        let found ← next
        match found.bind DateField.ofChar? with
        | some field => return (.dateTime field, c = 'T')
        | none => throw (.unknownDateSuffix found)
      else
        match Conversion.ofChar? c with
        | some conversion => return (conversion, c.isUpper)
        | none => throw (.unknownConversion (some c))

/-- What follows the `%` of a specifier. The relative mark wins over a position. -/
def specifier : Reader Specifier := do
  let index ← index
  let marks ← marks
  let width ← number
  let precision ← precision
  let (conversion, uppercase) ← conversion
  let specifier : Specifier :=
    { index := if marks.relative then .relative else index
      flags := marks.flags
      width, precision, conversion, uppercase }
  match specifier.fault? with
  | some fault => throw fault
  | none => return specifier

/-! ## Readers only move forward -/

/-- Where a reader stopped, with or without a value. -/
def stop {α : Type} : EStateM.Result Fault Input α → Input
  | .ok _ after => after
  | .error _ after => after

/-- The reader stops at the input or after it, wherever it starts. -/
def Advances {α : Type} (reader : Reader α) : Prop :=
  ∀ input : Input, input.Leads (stop (reader input))

theorem advances_pure {α : Type} (a : α) : Advances (pure a : Reader α) :=
  fun input => .refl input

theorem advances_throw {α : Type} (fault : Fault) : Advances (throw fault : Reader α) :=
  fun input => .refl input

theorem Advances.bind {α β : Type} {reader : Reader α} {next : α → Reader β}
    (hr : Advances reader) (hn : ∀ a, Advances (next a)) : Advances (reader >>= next) := by
  intro input
  have h := hr input
  simp only [Bind.bind, EStateM.bind]
  cases hx : reader input with
  | ok a after =>
      rw [hx] at h
      exact h.trans (hn a after)
  | error fault after =>
      rw [hx] at h
      exact h

theorem advances_next : Advances next := by
  intro input
  rw [next]
  split
  · exact Input.leads_of_next? ‹_›
  · exact .refl input

theorem advances_lookahead : Advances lookahead :=
  fun input => .refl input

theorem advances_takeWhile (p : Char → Bool) : Advances (takeWhile p) :=
  fun input => Input.leads_takeWhile p input

theorem advances_index : Advances index := by
  intro input
  have h := Input.leads_takeWhile Char.isDigit input
  rw [index]
  split
  · rename_i ht
    rw [ht] at h
    split <;> exact h.trans (Input.leads_cons _ '$' _)
  · exact .refl input

theorem leads_readFrom (rest : List Char) (found : Marks) (offset : Nat) :
    Input.Leads ⟨offset, rest⟩ (stop (found.readFrom offset rest)) := by
  induction rest generalizing found offset with
  | nil => exact .refl _
  | cons c rest ih =>
      have h := Input.leads_cons offset c rest
      rw [Marks.readFrom]
      split
      · exact .refl _
      · split
        · exact h
        · exact h.trans (ih _ _)

theorem advances_marks : Advances marks :=
  fun input => leads_readFrom input.rest {} input.offset

theorem advances_number : Advances number := by
  refine (advances_takeWhile _).bind fun digits => ?_
  split
  · exact advances_pure _
  · split
    · exact advances_pure _
    · exact advances_throw _

theorem advances_precision : Advances precision := by
  refine advances_lookahead.bind fun rest => ?_
  split
  · split
    · exact advances_next.bind fun _ => advances_number
    · exact advances_pure _
  · exact advances_pure _

theorem advances_conversion : Advances conversion := by
  refine advances_next.bind fun found => ?_
  split
  · exact advances_throw _
  · split
    · refine advances_next.bind fun _ => ?_
      split
      · exact advances_pure _
      · exact advances_throw _
    · split
      · exact advances_pure _
      · exact advances_throw _

theorem advances_specifier : Advances specifier := by
  refine advances_index.bind fun _ => advances_marks.bind fun _ => advances_number.bind fun _ =>
    advances_precision.bind fun _ => advances_conversion.bind fun _ => ?_
  dsimp only
  split
  · exact advances_throw _
  · exact advances_pure _

end Reader

end FormatCheck
