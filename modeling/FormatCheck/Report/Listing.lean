import FormatCheck.Report.Diagnostic
import FormatCheck.Report.Json

/-! # Diagnostics as a JSON list -/

namespace FormatCheck

def Label.json (label : Label) : Json :=
  .record [("start", .number label.span.start), ("end", .number label.span.stop),
    ("message", .text label.message)]

def Substitution.json (substitution : Substitution) : Json :=
  .record [("start", .number substitution.span.start), ("end", .number substitution.span.stop),
    ("snippet", .text substitution.snippet)]

def Fix.json (fix : Fix) : Json :=
  .record [("message", .text fix.message), ("applicability", .text fix.confidence.text),
    ("substitutions", .list (fix.substitutions.map Substitution.json))]

/-- The diagnostic with the format text it refers to, if that is known. -/
def Diagnostic.json (source? : Option String) (diagnostic : Diagnostic) : Json :=
  .record <|
    [("code", .text diagnostic.code.text)]
    ++ (source?.map fun source => ("format", .text source)).toList
    ++ [("message", .text diagnostic.message),
      ("labels", .list (diagnostic.labels.map Label.json)),
      ("notes", .list (diagnostic.notes.map .text)),
      ("suggestions", .list (diagnostic.suggestions.map .text)),
      ("structured_suggestions", .list (diagnostic.fixes.map Fix.json))]

namespace Listing

/-- How a list of diagnostics begins. -/
def opening : String := "[\n"

/-- How a list of diagnostics ends. -/
def closing : String := "\n]\n"

/-- One item of a list of diagnostics. Every item but the first ends the one before it. -/
def entry (first : Bool) (source? : Option String) (diagnostic : Diagnostic) : String :=
  (if first then "" else ",\n") ++ "  "
    ++ String.ofList ((diagnostic.json source?).render 2 2)

end Listing

end FormatCheck
