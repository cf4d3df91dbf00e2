import FormatCheck.Text.Decimal

/-! # Byte ranges of a format text -/

namespace FormatCheck

/-- The bytes from `start` up to, but not including, `stop`. -/
structure Span where
  start : Nat
  stop : Nat
deriving DecidableEq, Inhabited

namespace Span

/-- The empty range at an offset, where text can be inserted. -/
def point (offset : Nat) : Span :=
  ⟨offset, offset⟩

def contains (span : Span) (offset : Nat) : Bool :=
  span.start ≤ offset && offset < span.stop

/-- The number of bytes in the range, none when it runs backwards. -/
def length (span : Span) : Nat :=
  span.stop - span.start

def shift (span : Span) (bytes : Nat) : Span :=
  ⟨span.start + bytes, span.stop + bytes⟩

def text (span : Span) : String :=
  Decimal.text span.start ++ ".." ++ Decimal.text span.stop

end Span

/-- A value together with the range it was read from. -/
structure Located (α : Type) where
  value : α
  span : Span
deriving DecidableEq

namespace Located

def map {α β : Type} (f : α → β) (located : Located α) : Located β :=
  ⟨f located.value, located.span⟩

def shift {α : Type} (located : Located α) (bytes : Nat) : Located α :=
  ⟨located.value, located.span.shift bytes⟩

end Located

end FormatCheck
