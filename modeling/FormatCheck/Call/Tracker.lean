import FormatCheck.Format.Specifier

/-! # Argument positions

Positions count from one. A specifier without an index reads the next argument in
order, whatever positions other specifiers name; a relative one reads the argument
of the specifier before it. -/

namespace FormatCheck

/-- Why a specifier has no argument to read. -/
inductive Missing where
  | outOfRange (position : UInt32) (supplied : Nat)
  | noPrevious
deriving DecidableEq

/-- What the specifiers so far have referred to. -/
structure Tracker where
  lastExplicit : Option UInt32 := none
  lastUsed : Option UInt32 := none
  implicitCount : UInt32 := 0
  maxReferenced : UInt32 := 0
deriving DecidableEq

namespace Tracker

def start : Tracker := {}

/-- The number after `n`; the largest one has itself after it. -/
def increment (n : UInt32) : UInt32 :=
  if n.toNat + 1 < UInt32.size then n + 1 else n

/-- Notes that a position is read. -/
def use (tracker : Tracker) (position : UInt32) : Tracker :=
  { tracker with
    lastUsed := some position
    maxReferenced := max tracker.maxReferenced position }

/-- The position that an argument is read from, and what is known after it. -/
def resolveIndex (tracker : Tracker) : Index → Except Missing (UInt32 × Tracker)
  | .explicit position =>
      .ok (position, { tracker with lastExplicit := some position }.use position)
  | .relative =>
      match tracker.lastUsed with
      | some position => .ok (position, tracker.use position)
      | none => .error .noPrevious
  | .implicit =>
      let position := increment tracker.implicitCount
      .ok (position, { tracker with implicitCount := position }.use position)

/-- The position that a specifier reads, if it reads one, and what is known after it. -/
def resolve (tracker : Tracker) (specifier : Specifier) :
    Except Missing (Option UInt32 × Tracker) :=
  if specifier.readsArgument then
    (tracker.resolveIndex specifier.index).map fun (position, after) => (some position, after)
  else
    .ok (none, tracker)

/-- What is known after a specifier; one that does not resolve changes nothing. -/
def advance (tracker : Tracker) (specifier : Specifier) : Tracker :=
  match tracker.resolve specifier with
  | .ok (_, after) => after
  | .error _ => tracker

/-- What each of a sequence of specifiers resolves to, going on after failures. -/
def resolveAll (tracker : Tracker) : List Specifier → List (Except Missing (Option UInt32))
  | [] => []
  | specifier :: rest =>
      (tracker.resolve specifier).map Prod.fst :: (tracker.advance specifier).resolveAll rest

end Tracker

end FormatCheck
