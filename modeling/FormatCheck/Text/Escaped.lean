/-! # Visible text

A character is *shown* as itself unless it is a control character, which is
shown by its backslash escape. -/

namespace FormatCheck.Text

/-- The control characters of Unicode. -/
def isControl (c : Char) : Bool :=
  c.toNat < 0x20 || (0x7F ≤ c.toNat && c.toNat ≤ 0x9F)

/-- Hexadecimal digits in lower case, without leading zeros. -/
def hexDigits (n : Nat) : List Char :=
  Nat.toDigits 16 n

/-- A backslash escape for quotes, the backslash and everything outside printable
ASCII; other characters stand for themselves. -/
def escapeChar (c : Char) : List Char :=
  match c with
  | '\t' => ['\\', 't']
  | '\r' => ['\\', 'r']
  | '\n' => ['\\', 'n']
  | '\'' => ['\\', '\'']
  | '"' => ['\\', '"']
  | '\\' => ['\\', '\\']
  | c =>
      if 0x20 ≤ c.toNat && c.toNat ≤ 0x7E then [c]
      else ['\\', 'u', '\x7b'] ++ hexDigits c.toNat ++ ['\x7d']

/-- What a character looks like on a line of output. -/
def showChar (c : Char) : List Char :=
  if isControl c then escapeChar c else [c]

/-- What a text looks like on a line of output. -/
def shown (cs : List Char) : List Char :=
  cs.flatMap showChar

@[simp] theorem shown_nil : shown [] = [] := rfl

@[simp] theorem shown_append (as bs : List Char) : shown (as ++ bs) = shown as ++ shown bs :=
  List.flatMap_append

end FormatCheck.Text
