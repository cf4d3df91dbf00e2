import FormatCheck.Format.Segment

/-! # Reading on demand -/

namespace FormatCheck

/-- A format text whose segments are asked for one at a time. A fault ends it for good. -/
structure Scanner where
  input : Input
  failed : Bool := false

namespace Scanner

def ofText (text : String) : Scanner :=
  ⟨.ofText text, false⟩

/-- What a request gives, a segment or a fault unless there is nothing more, and the
scanner after it. -/
def next (scanner : Scanner) :
    Option (Except (Located Fault) (Located Segment)) × Scanner :=
  if scanner.failed then (none, scanner)
  else
    match scanner.input.step with
    | .done => (none, scanner)
    | .segment segment after => (some (.ok segment), { scanner with input := after })
    | .failed fault => (some (.error fault), { scanner with failed := true })

/-- The scanner after a number of requests. -/
def after (scanner : Scanner) : Nat → Scanner
  | 0 => scanner
  | requests + 1 => scanner.next.2.after requests

end Scanner

end FormatCheck
