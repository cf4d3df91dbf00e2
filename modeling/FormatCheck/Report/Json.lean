import FormatCheck.Text.Decimal
import FormatCheck.Text.Escaped

/-! # JSON documents -/

namespace FormatCheck

/-- A JSON value, as far as reports need one. -/
inductive Json where
  | text (value : String)
  | number (value : Nat)
  | list (items : List Json)
  | record (fields : List (String × Json))

namespace Json

/-! ## Texts -/

/-- Hexadecimal digits of a number, at least four. -/
def hexWord (n : Nat) : List Char :=
  let digits := Text.hexDigits n
  List.replicate (4 - digits.length) '0' ++ digits

/-- A character between quotes: quotes, the backslash and control characters are
escaped. -/
def escapeChar (c : Char) : List Char :=
  match c with
  | '"' => ['\\', '"']
  | '\\' => ['\\', '\\']
  | '\n' => ['\\', 'n']
  | '\r' => ['\\', 'r']
  | '\t' => ['\\', 't']
  | c => if Text.isControl c then ['\\', 'u'] ++ hexWord c.toNat else [c]

def escape (cs : List Char) : List Char :=
  cs.flatMap escapeChar

def quoted (text : String) : List Char :=
  '"' :: escape text.toList ++ ['"']

/-! ## Layout -/

/-- A sequence on one line. -/
def row (left : String) (items : List (List Char)) (right : String) : List Char :=
  left.toList ++ [',', ' '].intercalate items ++ right.toList

/-- Lines that each hold one item, indented, with commas between them. -/
def itemLines (indent : Nat) : List (List Char) → List Char
  | [] => []
  | [item] => List.replicate indent ' ' ++ item ++ ['\n']
  | item :: next :: items =>
      List.replicate indent ' ' ++ item ++ [',', '\n'] ++ itemLines indent (next :: items)

/-- A sequence with each item on a line of its own. -/
def block (left : Char) (indent : Nat) (items : List (List Char)) (right : Char) : List Char :=
  [left, '\n'] ++ itemLines (indent + 2) items ++ List.replicate indent ' ' ++ [right]

def field (key : String) (value : List Char) : List Char :=
  quoted key ++ [':', ' '] ++ value

mutual

/-- A value on one line. -/
def inline : Json → List Char
  | text value => quoted value
  | number value => Decimal.digits value
  | list items => row "[" (inlineItems items) "]"
  | record fields => row "\x7b " (inlineFields fields) " \x7d"

def inlineItems : List Json → List (List Char)
  | [] => []
  | item :: items => inline item :: inlineItems items

def inlineFields : List (String × Json) → List (List Char)
  | [] => []
  | (key, value) :: fields => field key (inline value) :: inlineFields fields

end

mutual

/-- A value over several lines. Records are spread down to a number of levels and
stand on one line below them; lists outside such a line are always spread. -/
def render (levels indent : Nat) : Json → List Char
  | text value => quoted value
  | number value => Decimal.digits value
  | list items => block '[' indent (renderItems levels (indent + 2) items) ']'
  | record fields =>
      match levels with
      | 0 => inline (record fields)
      | levels + 1 => block '\x7b' indent (renderFields levels (indent + 2) fields) '\x7d'

def renderItems (levels indent : Nat) : List Json → List (List Char)
  | [] => []
  | item :: items => render levels indent item :: renderItems levels indent items

def renderFields (levels indent : Nat) : List (String × Json) → List (List Char)
  | [] => []
  | (key, value) :: fields =>
      field key (render levels indent value) :: renderFields levels indent fields

end

end Json

end FormatCheck
