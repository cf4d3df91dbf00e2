/-! # Escapes in batch files

A format text in a batch file writes the tab, the two line ends and the backslash as
a backslash and a letter or another backslash. -/

namespace FormatCheck

/-- A backslash that does not start an escape. -/
inductive EscapeFault where
  | unknown (found : Char)
  | trailing
deriving DecidableEq

namespace Escape

/-- The character that an escape stands for, given by what follows the backslash. -/
def ofChar? : Char → Option Char
  | 't' => some '\t'
  | 'n' => some '\n'
  | 'r' => some '\r'
  | '\\' => some '\\'
  | _ => none

/-- Puts decoded text behind the reversed text that stands before it. -/
def decodeFrom (decoded : List Char) : List Char → Except EscapeFault (List Char)
  | [] => .ok decoded.reverse
  | ['\\'] => .error .trailing
  | '\\' :: c :: rest =>
      match ofChar? c with
      | some plain => decodeFrom (plain :: decoded) rest
      | none => .error (.unknown c)
  | c :: rest => decodeFrom (c :: decoded) rest

/-- Reads a text with escapes; backslashes are paired from left to right. -/
def decode (cs : List Char) : Except EscapeFault (List Char) :=
  decodeFrom [] cs

/-- How a character is written in a batch file. -/
def encodeChar : Char → List Char
  | '\t' => ['\\', 't']
  | '\n' => ['\\', 'n']
  | '\r' => ['\\', 'r']
  | '\\' => ['\\', '\\']
  | c => [c]

/-- Writes a text so that it has no tab, line end or lone backslash. -/
def encode (cs : List Char) : List Char :=
  cs.flatMap encodeChar

theorem decodeFrom_encodeChar_append (c : Char) (decoded rest : List Char) :
    decodeFrom decoded (encodeChar c ++ rest) = decodeFrom (c :: decoded) rest := by
  unfold encodeChar
  split
  · simp [decodeFrom, ofChar?]
  · simp [decodeFrom, ofChar?]
  · simp [decodeFrom, ofChar?]
  · simp [decodeFrom, ofChar?]
  · cases rest <;> simp_all [decodeFrom]

theorem decodeFrom_encode (cs decoded : List Char) :
    decodeFrom decoded (encode cs) = .ok (decoded.reverse ++ cs) := by
  induction cs generalizing decoded with
  | nil => simp [encode, decodeFrom]
  | cons c cs ih =>
      change decodeFrom decoded (encodeChar c ++ encode cs) = _
      rw [decodeFrom_encodeChar_append, ih]
      simp

@[simp] theorem decode_encode (cs : List Char) : decode (encode cs) = .ok cs := by
  simp [decode, decodeFrom_encode]

end Escape

end FormatCheck
