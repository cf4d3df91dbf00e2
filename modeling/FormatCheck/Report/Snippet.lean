import FormatCheck.Span
import FormatCheck.Text.Escaped

/-! # Pointing at a range of a format text -/

namespace FormatCheck

/-- Characters with the byte offsets at which they start. -/
def Text.withOffsets (offset : Nat) : List Char → List (Nat × Char)
  | [] => []
  | c :: cs => (offset, c) :: withOffsets (offset + c.utf8Size) cs

/-- A format text on one line, with the column and the width at which a range of it
is shown. -/
structure Snippet where
  line : List Char
  column : Nat
  width : Nat
deriving DecidableEq

/-- The part of a text that starts at offsets with a property, as it is shown. -/
def Text.shownWhere (cs : List Char) (p : Nat → Bool) : List Char :=
  shown (((withOffsets 0 cs).filter fun (offset, _) => p offset).map Prod.snd)

def Snippet.ofSpan (cs : List Char) (span : Span) : Snippet where
  line := Text.shown cs
  column := (Text.shownWhere cs (· < span.start)).length
  width := (Text.shownWhere cs span.contains).length

end FormatCheck
