import FormatCheck.Span
import FormatCheck.Text.Bytes

/-! # Fixes of a format text -/

namespace FormatCheck

/-- A range of a text and what to put in its place. -/
structure Substitution where
  span : Span
  snippet : String
deriving DecidableEq

/-- Makes a substitution, unless its range runs backwards, leaves the text or cuts
a character. -/
def Substitution.applyTo? (substitution : Substitution) (cs : List Char) : Option (List Char) := do
  let span := substitution.span
  guard (span.start ≤ span.stop)
  let (before, rest) ← Text.cut? span.start cs
  let (_, after) ← Text.cut? span.length rest
  return before ++ substitution.snippet.toList ++ after

/-- Whether a fix can be made without asking. -/
inductive Confidence where
  | certain
  | tentative
deriving DecidableEq

def Confidence.text : Confidence → String
  | certain => "machine-applicable"
  | tentative => "maybe-incorrect"

/-- Substitutions that together mend a format text. -/
structure Fix where
  message : String
  confidence : Confidence
  substitutions : List Substitution
deriving DecidableEq

namespace Fix

/-- The substitutions from the last start to the first, so that making one does not
move the ranges of those to come. -/
def ordered (fix : Fix) : List Substitution :=
  fix.substitutions.mergeSort fun a b => b.span.start ≤ a.span.start

/-- Makes the substitutions one after the other, if each of them can be made. -/
def applyTo? (fix : Fix) (source : String) : Option String := do
  let cs ← fix.ordered.foldlM (fun cs (next : Substitution) => next.applyTo? cs) source.toList
  return String.ofList cs

end Fix

end FormatCheck
