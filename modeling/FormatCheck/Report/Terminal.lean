import FormatCheck.Report.Diagnostic
import FormatCheck.Report.Snippet

/-! # Diagnostics on a terminal -/

namespace FormatCheck

/-- When to use colours. -/
inductive ColorMode where
  | auto
  | always
  | never
deriving DecidableEq

namespace ColorMode

def text : ColorMode → String
  | auto => "auto"
  | always => "always"
  | never => "never"

def ofText? : String → Option ColorMode
  | "auto" => some auto
  | "always" => some always
  | "never" => some never
  | _ => none

/-- Whether colours are used, depending on where the output goes. -/
def enabled (mode : ColorMode) (isTerminal : Bool) : Bool :=
  match mode with
  | auto => isTerminal
  | always => true
  | never => false

end ColorMode

/-! ## Coloured pieces of text -/

inductive Style where
  | error
  | help
  | bold
deriving DecidableEq

/-- The sequence that switches a style on. -/
def Style.on : Style → String
  | error => "\x1b[1;31m"
  | help => "\x1b[1;32m"
  | bold => "\x1b[1m"

/-- The sequence that switches all styles off. -/
def Style.off : String := "\x1b[0m"

/-- A piece of output, in a style or in none. -/
inductive Piece where
  | plain (text : String)
  | styled (style : Style) (text : String)
deriving DecidableEq

namespace Piece

/-- What is written for a piece; without colours its style is dropped. -/
def render (colors : Bool) : Piece → String
  | plain text => text
  | styled style text => if colors then style.on ++ text ++ Style.off else text

def renderAll (colors : Bool) (pieces : List Piece) : String :=
  String.join (pieces.map (render colors))

end Piece

/-! ## Reports -/

namespace Diagnostic

def header (diagnostic : Diagnostic) : List Piece :=
  [.styled .error "error", .styled .bold ("[" ++ diagnostic.code.text ++ "]"),
    .plain (": " ++ diagnostic.message ++ "\n")]

def labelLine (label : Label) : List Piece :=
  [.plain ("  --> " ++ label.span.text ++ ": "), .styled .error label.message, .plain "\n"]

/-- The format text with marks below the range, at least one of them. -/
def snippetLines (source : String) (span : Span) : List Piece :=
  let snippet := Snippet.ofSpan source.toList span
  [.plain ("   |\n   | " ++ String.ofList snippet.line ++ "\n   | "
      ++ String.ofList (List.replicate snippet.column ' ')),
    .styled .error (String.ofList (List.replicate (max snippet.width 1) '^')),
    .plain "\n"]

def noteLine (note : String) : List Piece :=
  [.plain "  = ", .styled .bold "note", .plain (": " ++ note ++ "\n")]

def helpLine (help : String) : List Piece :=
  [.plain "  = ", .styled .help "help", .plain (": " ++ help ++ "\n")]

/-- The message of a fix and the first text that it puts in, unless that is empty. -/
def fixHelp (fix : Fix) : String :=
  match fix.substitutions with
  | first :: _ =>
      if first.snippet = "" then fix.message
      else fix.message ++ ": `" ++ first.snippet ++ "`"
  | [] => fix.message

/-- All that is written for a diagnostic. -/
def pieces (source? : Option String) (diagnostic : Diagnostic) : List Piece :=
  diagnostic.header
    ++ diagnostic.labels.flatMap labelLine
    ++ (match source?, diagnostic.primarySpan? with
      | some source, some span => snippetLines source span
      | _, _ => [])
    ++ diagnostic.notes.flatMap noteLine
    ++ (diagnostic.suggestions ++ diagnostic.fixes.map fixHelp).flatMap helpLine
    ++ [.plain "\n"]

end Diagnostic

/-- A closing line with the number of calls that failed, if any did. -/
def summaryPieces : Nat → List Piece
  | 0 => []
  | 1 => [.styled .error "error", .plain ": 1 call site failed\n"]
  | failed => [.styled .error "error", .plain (": " ++ Decimal.text failed ++ " call sites failed\n")]

end FormatCheck
