import FormatCheck.Batch.Escape
import FormatCheck.Call.Check
import FormatCheck.Text.Blank
import FormatCheck.Text.Lines

/-! # Batch files

Each line of a batch file is a call: a format text with escapes, a tab, and the
names or signatures of the arguments between blanks. -/

namespace FormatCheck

/-- A call of a batch file, with the number of its line. -/
structure Entry where
  line : Nat
  format : String
  arguments : List Signature
deriving DecidableEq

/-- A line of a batch file that cannot be read. -/
structure BatchError where
  line : Nat
  fault : EscapeFault
deriving DecidableEq

def BatchError.message (error : BatchError) : String :=
  "line " ++ Decimal.text error.line ++ ": " ++
    match error.fault with
    | .unknown found => "unknown escape `\\" ++ found.toString ++ "` in format string"
    | .trailing => "format string ends with a lone `\\`"

namespace Batch

/-- Whether a line is blank or a comment. -/
def isSkipped (line : List Char) : Bool :=
  match line.dropWhile Text.isBlank with
  | [] => true
  | c :: _ => c = '#'

/-- The format text as written, up to the first tab. -/
def formatPart (line : List Char) : List Char :=
  line.takeWhile (· ≠ '\t')

/-- What follows the first tab. -/
def argumentPart (line : List Char) : List Char :=
  (line.dropWhile (· ≠ '\t')).drop 1

def argumentNames (line : List Char) : List String :=
  (Text.words (argumentPart line)).map String.ofList

def parseLine (line : List Char) (number : Nat) : Except BatchError Entry :=
  match Escape.decode (formatPart line) with
  | .ok format =>
      .ok ⟨number, String.ofList format, (argumentNames line).map Signature.ofSourceName⟩
  | .error fault => .error ⟨number, fault⟩

/-- The lines of a text that hold calls, with their numbers. -/
def callLines (text : String) : List (List Char × Nat) :=
  ((Text.lines text.toList).zipIdx 1).filter fun (line, _) => !isSkipped line

/-- The calls of a batch file, or its first line that cannot be read. -/
def parse (text : String) : Except BatchError (List Entry) :=
  (callLines text).mapM fun (line, number) => parseLine line number

end Batch

/-- The outcome of a call of a batch file. -/
def Entry.check (entry : Entry) : Except (Located Problem) Unit :=
  FormatCheck.check entry.format entry.arguments

end FormatCheck
