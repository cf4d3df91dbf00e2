import FormatCheck.Code
import FormatCheck.Report.Fix

/-! # Diagnostics -/

namespace FormatCheck

/-- A message beside a range of the format text. -/
structure Label where
  span : Span
  message : String
deriving DecidableEq

/-- All that is reported about one failure. -/
structure Diagnostic where
  code : Code
  message : String := ""
  labels : List Label := []
  notes : List String := []
  suggestions : List String := []
  fixes : List Fix := []
deriving DecidableEq

namespace Diagnostic

def addLabel (diagnostic : Diagnostic) (label : Label) : Diagnostic :=
  { diagnostic with labels := diagnostic.labels ++ [label] }

def addNote (diagnostic : Diagnostic) (note : String) : Diagnostic :=
  { diagnostic with notes := diagnostic.notes ++ [note] }

def addSuggestion (diagnostic : Diagnostic) (suggestion : String) : Diagnostic :=
  { diagnostic with suggestions := diagnostic.suggestions ++ [suggestion] }

def addFix (diagnostic : Diagnostic) (fix : Fix) : Diagnostic :=
  { diagnostic with fixes := diagnostic.fixes ++ [fix] }

/-- The range of the first label, where the failure is. -/
def primarySpan? (diagnostic : Diagnostic) : Option Span :=
  diagnostic.labels.head?.map Label.span

/-- The diagnostic as plain text, one line for each part. -/
def text (diagnostic : Diagnostic) : String :=
  "error [" ++ diagnostic.code.text ++ "]: " ++ diagnostic.message
    ++ String.join (diagnostic.labels.map fun label =>
      "\n  --> " ++ label.span.text ++ ": " ++ label.message)
    ++ String.join (diagnostic.notes.map fun note => "\n  = note: " ++ note)
    ++ String.join (diagnostic.suggestions.map fun suggestion => "\n  = help: " ++ suggestion)
    ++ String.join (diagnostic.fixes.map fun fix => "\n  = help: " ++ fix.message)

end Diagnostic

end FormatCheck
