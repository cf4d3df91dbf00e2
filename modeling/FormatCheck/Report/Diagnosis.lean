import FormatCheck.Call.Problem
import FormatCheck.Report.Diagnostic

/-! # Diagnoses of failures -/

namespace FormatCheck

/-- A fix that replaces one range. -/
def Fix.replace (message : String) (confidence : Confidence) (span : Span) (snippet : String) :
    Fix :=
  ⟨message, confidence, [⟨span, snippet⟩]⟩

/-! ## Faults of the format text -/

/-- A specifier that the end of the text cuts off can be meant as a percent sign, and
a lone date/time suffix lacks its `t`. -/
def Fault.fix? (fault : Fault) (span : Span) : Option Fix :=
  match fault with
  | .unknownConversion none => some (.replace "escape the percent sign" .certain span "%%")
  | .unknownConversion (some c) =>
      if isDateSuffix c then
        some (.replace "add the `t` prefix" .tentative (.point (span.stop - c.utf8Size)) "t")
      else none
  | _ => none

/-! ## Problems of the arguments -/

/-- The same specifier with another conversion. Index and width stay; of the flags
only left justification does, and only beside a width. -/
def Specifier.withConversion (specifier : Specifier) (conversion : Conversion) : Specifier where
  index := specifier.index
  flags := { leftJustify := specifier.width.isSome && specifier.flags.leftJustify }
  width := specifier.width
  precision := none
  conversion := conversion
  uppercase := false

/-- The specifier with a conversion that accepts the argument. -/
def Specifier.fix? (specifier : Specifier) (actual : Signature) (span : Span) : Option Fix :=
  actual.suggestion?.map fun conversion =>
    let replacement := (specifier.withConversion conversion).text
    .replace ("use `" ++ replacement ++ "` to format " ++ actual.sourceText) .tentative span
      replacement

def Missing.label : Missing → String
  | outOfRange position _ => "reads argument " ++ Decimal.text position.toNat
  | noPrevious => "nothing to refer back to"

def Missing.suggestion : Missing → String
  | outOfRange .. => "pass the missing argument or fix the index"
  | noPrevious => "use an explicit index such as `%1$` instead of `%<`"

namespace Problem

def label : Problem → String
  | malformed fault => fault.label
  | missing reason => reason.label
  | mismatch _ _ expected _ _ => "expects a " ++ expected.name ++ " argument"
  | extra supplied referenced =>
      "uses " ++ Decimal.text referenced.toNat ++ " of " ++ Decimal.text supplied ++ " arguments"

def notes : Problem → List String
  | malformed _ | missing _ => []
  | mismatch specifier position expected actual _ =>
      ["argument " ++ Decimal.text position.toNat ++ " is declared as " ++ actual.sourceText,
        "`%" ++ specifier.conversion.text ++ "` accepts " ++ expected.types]
  | extra _ referenced =>
      ["arguments after position " ++ Decimal.text referenced.toNat ++ " are never formatted"]

def suggestions : Problem → List String
  | malformed fault => fault.hint?.toList
  | missing reason => [reason.suggestion]
  | mismatch _ _ _ _ .array => ["format the array with `java.util.Arrays.toString(...)`"]
  | mismatch .. => []
  | extra .. => ["remove the unused arguments or add specifiers for them"]

def fixes (problem : Problem) (span : Span) : List Fix :=
  match problem with
  | malformed fault => (fault.fix? span).toList
  | mismatch _ _ _ _ .array => []
  | mismatch specifier _ _ actual _ => (specifier.fix? actual span).toList
  | missing _ | extra .. => []

def diagnose (problem : Problem) (span : Span) : Diagnostic where
  code := problem.code
  message := problem.message
  labels := [⟨span, problem.label⟩]
  notes := problem.notes
  suggestions := problem.suggestions
  fixes := problem.fixes span

end Problem

end FormatCheck
