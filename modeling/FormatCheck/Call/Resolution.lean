import FormatCheck.Call.Tracker
import FormatCheck.Span

/-! # Runs of specifiers -/

namespace FormatCheck

/-- What one specifier of a run resolved to, and what is known after it. -/
structure Resolution where
  result : Except (Located Missing) (Option UInt32)
  after : Tracker

/-- The position that was resolved, if there is one. -/
def Resolution.position? (resolution : Resolution) : Option UInt32 :=
  match resolution.result with
  | .ok position? => position?
  | .error _ => none

namespace Tracker

/-- Resolves one specifier of a text. A failure stands where the specifier does. -/
def resolution (tracker : Tracker) (specifier : Located Specifier) : Resolution where
  result :=
    match tracker.resolve specifier.value with
    | .ok (position?, _) => .ok position?
    | .error reason => .error ⟨reason, specifier.span⟩
  after := tracker.advance specifier.value

/-- Resolves specifiers one after the other, going on after failures. -/
def run (tracker : Tracker) : List (Located Specifier) → List Resolution
  | [] => []
  | specifier :: rest =>
      let resolution := tracker.resolution specifier
      resolution :: resolution.after.run rest

/-- What is known after a run. -/
def known (tracker : Tracker) (specifiers : List (Located Specifier)) : Tracker :=
  ((tracker.run specifiers).getLast?.map Resolution.after).getD tracker

end Tracker

end FormatCheck
