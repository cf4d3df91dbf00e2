import FormatCheck.Report.Listing
import FormatCheck.Report.Terminal

/-! # Writing reports -/

namespace FormatCheck

/-- What has to be known between one diagnostic and the next. -/
inductive Writer where
  | terminal (colors : Bool) (source? : Option String)
  | json (first : Bool) (source? : Option String)
deriving DecidableEq

/-- What a writer can be told to do. -/
inductive Action where
  | start
  | finish
  | source (text : String)
  | emit (diagnostic : Diagnostic)
  | emitAll (diagnostics : List Diagnostic)
  | summary (failed : Nat)
  | flush
deriving DecidableEq

namespace Writer

def onTerminal (colors : Bool) : Writer :=
  .terminal colors none

def asJson : Writer :=
  .json true none

def setSource (text : String) : Writer → Writer
  | .terminal colors _ => .terminal colors (some text)
  | .json first _ => .json first (some text)

def emit (diagnostic : Diagnostic) : Writer → Writer × String
  | .terminal colors source? =>
      (.terminal colors source?, Piece.renderAll colors (diagnostic.pieces source?))
  | .json first source? => (.json false source?, Listing.entry first source? diagnostic)

def emitAll (writer : Writer) : List Diagnostic → Writer × String
  | [] => (writer, "")
  | diagnostic :: rest =>
      let (writer, text) := writer.emit diagnostic
      let (writer, more) := writer.emitAll rest
      (writer, text ++ more)

def summary (failed : Nat) : Writer → String
  | .terminal colors _ => Piece.renderAll colors (summaryPieces failed)
  | .json .. => ""

/-- Does what it is told to and returns the text that this writes. Only a JSON list
has a beginning and an end. -/
def step (writer : Writer) : Action → Writer × String
  | .start =>
      match writer with
      | .terminal .. => (writer, "")
      | .json .. => (writer, Listing.opening)
  | .finish =>
      match writer with
      | .terminal .. => (writer, "")
      | .json .. => (writer, Listing.closing)
  | .source text => (writer.setSource text, "")
  | .emit diagnostic => writer.emit diagnostic
  | .emitAll diagnostics => writer.emitAll diagnostics
  | .summary failed => (writer, writer.summary failed)
  | .flush => (writer, "")

/-- The texts that actions write, one after the other. -/
def run (writer : Writer) : List Action → List String
  | [] => []
  | action :: actions =>
      let (writer, text) := writer.step action
      text :: writer.run actions

end Writer

end FormatCheck
