import FormatCheck.Report.Json

/-! # The grammar of JSON

All that a JSON text may be, whatever program wrote it, and what it stands for. A text
is read from the front, and what is left of it is read next. No text can be read in two
ways. -/

namespace FormatCheck.Json

/-- What a JSON text stands for. A number is kept as it is written. -/
inductive Document where
  | null
  | boolean (value : Bool)
  | number (numeral : List Char)
  | text (value : String)
  | list (items : List Document)
  | record (members : List (String × Document))

/-! ## Gaps -/

/-- The characters that may stand around the parts of a JSON text. -/
def isGap (c : Char) : Bool :=
  c = ' ' || c = '\t' || c = '\n' || c = '\r'

/-- A gap, which may be empty, leads from one text to another. -/
def Gap (input rest : List Char) : Prop :=
  ∃ gap, (∀ c ∈ gap, isGap c = true) ∧ input = gap ++ rest

/-! ## Characters of a text -/

/-- The character that a backslash and a letter or sign stand for. -/
def shortEscape? : Char → Option Char
  | '"' => some '"'
  | '\\' => some '\\'
  | '/' => some '/'
  | 'b' => some '\x08'
  | 'f' => some '\x0c'
  | 'n' => some '\n'
  | 'r' => some '\r'
  | 't' => some '\t'
  | _ => none

/-- The value of a hexadecimal digit, in either case. -/
def hexDigit? (c : Char) : Option Nat :=
  if '0' ≤ c ∧ c ≤ '9' then some (c.toNat - '0'.toNat)
  else if 'a' ≤ c ∧ c ≤ 'f' then some (c.toNat - 'a'.toNat + 10)
  else if 'A' ≤ c ∧ c ≤ 'F' then some (c.toNat - 'A'.toNat + 10)
  else none

/-- The value of four hexadecimal digits. -/
def hexWord? (a b c d : Char) : Option Nat := do
  return (((← hexDigit? a) * 16 + (← hexDigit? b)) * 16 + (← hexDigit? c)) * 16 + (← hexDigit? d)

/-- One character between quotes. One whose number does not fit in four digits is
escaped as two halves, neither of which is the number of a character. -/
inductive ReadsChar : List Char → Char → List Char → Prop where
  | plain {c : Char} {rest : List Char} (hspace : 0x20 ≤ c.toNat) (hquote : c ≠ '"')
      (hbackslash : c ≠ '\\') : ReadsChar (c :: rest) c rest
  | short {letter c : Char} {rest : List Char} (hshort : shortEscape? letter = some c) :
      ReadsChar ('\\' :: letter :: rest) c rest
  | word {x₁ x₂ x₃ x₄ c : Char} {rest : List Char} (hword : hexWord? x₁ x₂ x₃ x₄ = some c.toNat) :
      ReadsChar ('\\' :: 'u' :: x₁ :: x₂ :: x₃ :: x₄ :: rest) c rest
  | halves {x₁ x₂ x₃ x₄ y₁ y₂ y₃ y₄ c : Char} {high low : Nat} {rest : List Char}
      (hhigh : hexWord? x₁ x₂ x₃ x₄ = some (0xD800 + high)) (hhigh_lt : high < 0x400)
      (hlow : hexWord? y₁ y₂ y₃ y₄ = some (0xDC00 + low)) (hlow_lt : low < 0x400)
      (hchar : c.toNat = 0x10000 + high * 0x400 + low) :
      ReadsChar ('\\' :: 'u' :: x₁ :: x₂ :: x₃ :: x₄ ::
        '\\' :: 'u' :: y₁ :: y₂ :: y₃ :: y₄ :: rest) c rest

/-- Characters up to the closing quote. -/
inductive ReadsText : List Char → List Char → List Char → Prop where
  | close {rest : List Char} : ReadsText ('"' :: rest) [] rest
  | char {input mid rest cs : List Char} {c : Char} (hchar : ReadsChar input c mid)
      (htext : ReadsText mid cs rest) : ReadsText input (c :: cs) rest

/-! ## Numbers -/

/-- One digit or more. -/
structure IsDigits (cs : List Char) : Prop where
  nonempty : cs ≠ []
  isDigit : ∀ c ∈ cs, c.isDigit = true

/-- A point and digits, or nothing. -/
def IsFraction (cs : List Char) : Prop :=
  cs = [] ∨ ∃ digits, cs = '.' :: digits ∧ IsDigits digits

/-- An exponent, with or without a sign, or nothing. -/
def IsExponent (cs : List Char) : Prop :=
  cs = [] ∨ ∃ mark ∈ ['e', 'E'], ∃ sign ∈ [[], ['+'], ['-']], ∃ digits,
    cs = mark :: (sign ++ digits) ∧ IsDigits digits

/-- A number as it is written. Only the number zero starts with a zero. -/
inductive IsNumeral : List Char → Prop where
  | mk {sign whole fraction exponent : List Char} (hsign : sign ∈ [[], ['-']])
      (hwhole : IsDigits whole) (hzero : whole.head? = some '0' → whole = ['0'])
      (hfraction : IsFraction fraction) (hexponent : IsExponent exponent) :
      IsNumeral (sign ++ (whole ++ (fraction ++ exponent)))

/-- A number at the front of a text. -/
def ReadsNumeral (input numeral rest : List Char) : Prop :=
  IsNumeral numeral ∧ input = numeral ++ rest

/-! ## Values -/

/-- What encloses a list, and what encloses a record. -/
inductive Bracket where
  | square
  | curly

namespace Bracket

def close : Bracket → Char
  | square => ']'
  | curly => '\x7d'

/-- What stands between the brackets: values, or values with their keys. -/
abbrev Element : Bracket → Type
  | square => Document
  | curly => String × Document

end Bracket

/-- The parts of a JSON text that contain each other. A value by itself is what may
stand between square brackets. -/
inductive Phrase where
  | element (bracket : Bracket) (element : bracket.Element)
  | elements (bracket : Bracket) (elements : List bracket.Element)

/-- A value, as a phrase. -/
abbrev Phrase.value (document : Document) : Phrase :=
  .element .square document

/-- A value with its key, as a phrase. -/
abbrev Phrase.member (key : String) (document : Document) : Phrase :=
  .element .curly (key, document)

/-- A phrase stands at the front of a text. Elements are read with the closing bracket
and have commas between them. -/
inductive Reads : List Char → Phrase → List Char → Prop where
  | null {rest : List Char} : Reads ('n' :: 'u' :: 'l' :: 'l' :: rest) (.value .null) rest
  | yes {rest : List Char} :
      Reads ('t' :: 'r' :: 'u' :: 'e' :: rest) (.value (.boolean true)) rest
  | no {rest : List Char} :
      Reads ('f' :: 'a' :: 'l' :: 's' :: 'e' :: rest) (.value (.boolean false)) rest
  | number {input numeral rest : List Char} (hnumeral : ReadsNumeral input numeral rest) :
      Reads input (.value (.number numeral)) rest
  | text {input cs rest : List Char} (htext : ReadsText input cs rest) :
      Reads ('"' :: input) (.value (.text (String.ofList cs))) rest
  | list {input rest : List Char} {documents : List Document}
      (hitems : Reads input (.elements .square documents) rest) :
      Reads ('[' :: input) (.value (.list documents)) rest
  | record {input rest : List Char} {members : List (String × Document)}
      (hmembers : Reads input (.elements .curly members) rest) :
      Reads ('\x7b' :: input) (.value (.record members)) rest
  | member {input key mid after start stop : List Char} {document : Document}
      (hkey : ReadsText input key mid) (hcolon : Gap mid (':' :: after)) (hgap : Gap after start)
      (hvalue : Reads start (.value document) stop) :
      Reads ('"' :: input) (.member (String.ofList key) document) stop
  | nothing {bracket : Bracket} {input rest : List Char}
      (hclose : Gap input (bracket.close :: rest)) : Reads input (.elements bracket []) rest
  | last {bracket : Bracket} {element : bracket.Element} {input start stop rest : List Char}
      (hgap : Gap input start) (helement : Reads start (.element bracket element) stop)
      (hclose : Gap stop (bracket.close :: rest)) : Reads input (.elements bracket [element]) rest
  | more {bracket : Bracket} {element next : bracket.Element} {elements : List bracket.Element}
      {input start stop behind rest : List Char} (hgap : Gap input start)
      (helement : Reads start (.element bracket element) stop) (hcomma : Gap stop (',' :: behind))
      (helements : Reads behind (.elements bracket (next :: elements)) rest) :
      Reads input (.elements bracket (element :: next :: elements)) rest

/-- A whole text stands for a document. -/
def Denotes (input : List Char) (document : Document) : Prop :=
  ∃ start stop, Gap input start ∧ Reads start (.value document) stop ∧ Gap stop []

/-! ## Gaps end where something starts -/

theorem gap_nil (rest : List Char) : Gap rest rest :=
  ⟨[], by simp, rfl⟩

theorem gap_append {gap : List Char} (h : ∀ c ∈ gap, isGap c = true) (rest : List Char) :
    Gap (gap ++ rest) rest :=
  ⟨gap, h, rfl⟩

/-- Two gaps at the front of a text that end at something end together. -/
theorem Gap.unique {input rest rest' : List Char} {c d : Char} (h : Gap input (c :: rest))
    (h' : Gap input (d :: rest')) (hc : isGap c = false) (hd : isGap d = false) :
    c = d ∧ rest = rest' := by
  have hdrop : ∀ {e : Char} {more : List Char}, Gap input (e :: more) → isGap e = false →
      input.dropWhile isGap = e :: more := by
    intro e more hgap he
    obtain ⟨gap, hall, rfl⟩ := hgap
    rw [List.dropWhile_append_of_pos hall, List.dropWhile_cons, he]
    rfl
  have hsame := hdrop h hc
  rw [hdrop h' hd] at hsame
  obtain ⟨rfl, rfl⟩ := List.cons.inj hsame
  exact ⟨rfl, rfl⟩

/-! ## One reading of a text -/

/-- Halves of a character are told from the number of a whole one. -/
theorem toNat_ne_high (c : Char) {high : Nat} (h : high < 0x400) : c.toNat ≠ 0xD800 + high := by
  intro heq
  have hvalid : c.toNat < 0xD800 ∨ 0xDFFF < c.toNat ∧ c.toNat < 0x110000 := c.valid
  omega

theorem ReadsChar.unique {input rest rest' : List Char} {c c' : Char}
    (h : ReadsChar input c rest) (h' : ReadsChar input c' rest') : c = c' ∧ rest = rest' := by
  cases h with
  | plain _ _ hbackslash =>
      cases h' with
      | plain _ _ _ => exact ⟨rfl, rfl⟩
      | short _ | word _ | halves _ _ _ _ _ => exact absurd rfl hbackslash
  | short hshort =>
      cases h' with
      | plain _ _ hbackslash => exact absurd rfl hbackslash
      | short hshort' => exact ⟨Option.some.inj (hshort.symm.trans hshort'), rfl⟩
      | word _ | halves _ _ _ _ _ => cases hshort
  | word hword =>
      cases h' with
      | plain _ _ hbackslash => exact absurd rfl hbackslash
      | short hshort => cases hshort
      | word hword' =>
          have hnumber := Option.some.inj (hword.symm.trans hword')
          exact ⟨Char.toNat_inj.mp hnumber, rfl⟩
      | halves hhigh hhigh_lt _ _ _ =>
          have hnumber := Option.some.inj (hword.symm.trans hhigh)
          exact absurd hnumber (toNat_ne_high c hhigh_lt)
  | halves hhigh hhigh_lt hlow hlow_lt hchar =>
      cases h' with
      | plain _ _ hbackslash => exact absurd rfl hbackslash
      | short hshort => cases hshort
      | word hword =>
          have hnumber := Option.some.inj (hword.symm.trans hhigh)
          exact absurd hnumber (toNat_ne_high c' hhigh_lt)
      | halves hhigh' _ hlow' _ hchar' =>
          have hhigh := Option.some.inj (hhigh.symm.trans hhigh')
          have hlow := Option.some.inj (hlow.symm.trans hlow')
          refine ⟨Char.toNat_inj.mp ?_, rfl⟩
          omega

theorem not_readsChar_quote {input rest : List Char} {c : Char} :
    ¬ReadsChar ('"' :: input) c rest := by
  intro h
  cases h with
  | plain _ hquote _ => exact hquote rfl

theorem ReadsText.unique {input cs cs' rest rest' : List Char} (h : ReadsText input cs rest)
    (h' : ReadsText input cs' rest') : cs = cs' ∧ rest = rest' := by
  induction h generalizing cs' with
  | close =>
      cases h' with
      | close => exact ⟨rfl, rfl⟩
      | char hchar _ => exact absurd hchar not_readsChar_quote
  | char hchar _ ih =>
      cases h' with
      | close => exact absurd hchar not_readsChar_quote
      | char hchar' htext' =>
          obtain ⟨rfl, rfl⟩ := hchar.unique hchar'
          obtain ⟨rfl, rfl⟩ := ih htext'
          exact ⟨rfl, rfl⟩

/-! ## One reading of a number -/

/-- The characters of numbers. -/
def isNumeralChar (c : Char) : Bool :=
  c.isDigit || c ∈ ['+', '-', '.', 'e', 'E']

/-- Nothing that could go on with a number comes next. -/
def EndsNumeral (input : List Char) : Prop :=
  ∀ c ∈ input.head?, isNumeralChar c = false

theorem IsDigits.isNumeralChar {cs : List Char} (h : IsDigits cs) :
    ∀ c ∈ cs, isNumeralChar c = true := by
  intro c hc
  simp [Json.isNumeralChar, h.isDigit c hc]

theorem IsFraction.isNumeralChar {cs : List Char} (h : IsFraction cs) :
    ∀ c ∈ cs, isNumeralChar c = true := by
  rcases h with rfl | ⟨digits, rfl, hdigits⟩
  · simp
  · exact List.forall_mem_cons.mpr ⟨by decide, hdigits.isNumeralChar⟩

theorem IsExponent.isNumeralChar {cs : List Char} (h : IsExponent cs) :
    ∀ c ∈ cs, isNumeralChar c = true := by
  rcases h with rfl | ⟨mark, hmark, sign, hsign, digits, rfl, hdigits⟩
  · simp
  · have hmarks : ∀ c ∈ ['e', 'E'], Json.isNumeralChar c = true := by simp [Json.isNumeralChar]
    have hsigns : ∀ cs ∈ [[], ['+'], ['-']], ∀ c ∈ cs, Json.isNumeralChar c = true := by
      simp [Json.isNumeralChar]
    refine List.forall_mem_cons.mpr ⟨hmarks mark hmark, List.forall_mem_append.mpr ?_⟩
    exact ⟨hsigns sign hsign, hdigits.isNumeralChar⟩

theorem IsNumeral.isNumeralChar {numeral : List Char} (h : IsNumeral numeral) :
    ∀ c ∈ numeral, isNumeralChar c = true := by
  obtain ⟨hsign, hwhole, -, hfraction, hexponent⟩ := h
  have hsigns : ∀ cs ∈ [[], ['-']], ∀ c ∈ cs, Json.isNumeralChar c = true := by
    simp [Json.isNumeralChar]
  simp only [List.forall_mem_append]
  exact ⟨hsigns _ hsign, hwhole.isNumeralChar, hfraction.isNumeralChar, hexponent.isNumeralChar⟩

/-- A number starts with a digit or a minus sign. -/
theorem IsNumeral.exists_cons {numeral : List Char} (h : IsNumeral numeral) :
    ∃ c rest, numeral = c :: rest ∧ (c.isDigit = true ∨ c = '-') := by
  cases h with
  | @mk sign whole fraction exponent hsign hwhole hzero hfraction hexponent =>
      obtain ⟨d, ds, rfl⟩ := List.exists_cons_of_ne_nil hwhole.nonempty
      have hd := hwhole.isDigit d (by simp)
      simp only [List.mem_cons, List.not_mem_nil, or_false] at hsign
      rcases hsign with rfl | rfl
      · exact ⟨d, _, rfl, .inl hd⟩
      · exact ⟨'-', _, rfl, .inr rfl⟩

theorem ReadsNumeral.unique {input numeral numeral' rest rest' : List Char}
    (h : ReadsNumeral input numeral rest) (h' : ReadsNumeral input numeral' rest')
    (hend : EndsNumeral rest) (hend' : EndsNumeral rest') :
    numeral = numeral' ∧ rest = rest' := by
  have htake : ∀ {cs more : List Char}, ReadsNumeral input cs more → EndsNumeral more →
      input.takeWhile isNumeralChar = cs := by
    intro cs more hreads hmore
    obtain ⟨hcs, rfl⟩ := hreads
    rw [List.takeWhile_append_of_pos hcs.isNumeralChar]
    cases more with
    | nil => simp
    | cons c more => simp [hmore c rfl]
  have hsame : numeral = numeral' := (htake h hend).symm.trans (htake h' hend')
  subst hsame
  exact ⟨rfl, List.append_cancel_left (h.2.symm.trans h'.2)⟩

theorem Gap.endsNumeral {input rest : List Char} (h : Gap input rest)
    (hrest : EndsNumeral rest) : EndsNumeral input := by
  obtain ⟨gap, hall, rfl⟩ := h
  cases gap with
  | nil => exact hrest
  | cons c gap =>
      intro d hd
      obtain rfl : c = d := by simpa using hd
      have hc := hall c (by simp)
      simp only [isGap, Bool.or_eq_true, decide_eq_true_eq] at hc
      rcases hc with ((rfl | rfl) | rfl) | rfl <;> decide

theorem endsNumeral_cons {c : Char} (h : isNumeralChar c = false) (rest : List Char) :
    EndsNumeral (c :: rest) := by
  intro d hd
  obtain rfl : c = d := by simpa using hd
  exact h

/-! ## One reading of a value -/

theorem ReadsNumeral.head {c : Char} {input numeral rest : List Char}
    (h : ReadsNumeral (c :: input) numeral rest) : c.isDigit = true ∨ c = '-' := by
  obtain ⟨hnumeral, hinput⟩ := h
  obtain ⟨d, more, rfl, hd⟩ := hnumeral.exists_cons
  obtain ⟨rfl, -⟩ := List.cons.inj hinput
  exact hd

/-- Only numbers start with a digit or a minus sign. -/
theorem Reads.exists_numeral {input numeral rest rest' : List Char} {document : Document}
    (h : ReadsNumeral input numeral rest) (h' : Reads input (.value document) rest') :
    ∃ numeral', document = .number numeral' ∧ ReadsNumeral input numeral' rest' := by
  cases h' with
  | number hnumeral => exact ⟨_, rfl, hnumeral⟩
  | _ => exact absurd h.head (by decide)

/-- What comes next is not part of a gap, and does not close a list or a record. -/
def Starts (input : List Char) : Prop :=
  ∃ c rest, input = c :: rest ∧ isGap c = false ∧ ∀ bracket : Bracket, c ≠ bracket.close

theorem starts_cons {c : Char} (hgap : isGap c = false) (hsquare : c ≠ ']')
    (hcurly : c ≠ '\x7d') (rest : List Char) : Starts (c :: rest) := by
  refine ⟨c, rest, rfl, hgap, ?_⟩
  intro bracket
  cases bracket with
  | square => exact hsquare
  | curly => exact hcurly

theorem starts_of_isDigit {c : Char} (h : c.isDigit = true) (rest : List Char) :
    Starts (c :: rest) := by
  have hne : ∀ d : Char, d.isDigit = false → c ≠ d := by
    rintro d hd rfl
    rw [h] at hd
    cases hd
  refine starts_cons ?_ (hne _ rfl) (hne _ rfl) rest
  simp [isGap, hne]

theorem Reads.starts {bracket : Bracket} {element : bracket.Element} {input rest : List Char}
    (h : Reads input (.element bracket element) rest) : Starts input := by
  cases h with
  | number hnumeral =>
      obtain ⟨hnumeral, rfl⟩ := hnumeral
      obtain ⟨c, more, rfl, hc⟩ := hnumeral.exists_cons
      rcases hc with hdigit | rfl
      · exact starts_of_isDigit hdigit _
      · exact starts_cons rfl (by decide) (by decide) _
  | _ => exact starts_cons rfl (by decide) (by decide) _

theorem Bracket.isGap_close (bracket : Bracket) : isGap bracket.close = false := by
  cases bracket <;> rfl

theorem Bracket.close_ne_comma (bracket : Bracket) : bracket.close ≠ ',' := by
  cases bracket <;> decide

theorem Gap.endsNumeral_close {bracket : Bracket} {input rest : List Char}
    (h : Gap input (bracket.close :: rest)) : EndsNumeral input := by
  apply h.endsNumeral
  apply endsNumeral_cons
  cases bracket <;> rfl

theorem Gap.endsNumeral_comma {input rest : List Char} (h : Gap input (',' :: rest)) :
    EndsNumeral input :=
  h.endsNumeral (endsNumeral_cons rfl rest)

theorem Gap.eq_of_starts {input start start' : List Char} (h : Gap input start)
    (h' : Gap input start') (hstart : Starts start) (hstart' : Starts start') :
    start = start' := by
  obtain ⟨c, rest, rfl, hc, -⟩ := hstart
  obtain ⟨d, rest', rfl, hd, -⟩ := hstart'
  obtain ⟨rfl, rfl⟩ := h.unique h' hc hd
  rfl

/-- A list or a record that is closed at once has nothing in it. -/
theorem Gap.not_starts {bracket : Bracket} {input start rest : List Char}
    (h : Gap input (bracket.close :: rest)) (hstart : Gap input start) : ¬Starts start := by
  intro hstarts
  obtain ⟨c, more, rfl, hc, hne⟩ := hstarts
  exact hne bracket (hstart.unique h hc bracket.isGap_close).1

/-- All other readings of the same text give the same. An element could be read in two
ways only if it ended in the middle of a number. -/
def OnlyReading (input : List Char) : Phrase → List Char → Prop
  | .element bracket element, rest => EndsNumeral rest → ∀ (element' : bracket.Element) rest',
      Reads input (.element bracket element') rest' → EndsNumeral rest' →
        element = element' ∧ rest = rest'
  | .elements bracket elements, rest => ∀ (elements' : List bracket.Element) rest',
      Reads input (.elements bracket elements') rest' → elements = elements' ∧ rest = rest'

/-- What stands behind a gap is the same in every reading. -/
theorem OnlyReading.element_eq {bracket : Bracket} {element element' : bracket.Element}
    {input start start' stop stop' : List Char}
    (ih : OnlyReading start (.element bracket element) stop)
    (hgap : Gap input start) (helement : Reads start (.element bracket element) stop)
    (hend : EndsNumeral stop) (hgap' : Gap input start')
    (helement' : Reads start' (.element bracket element') stop') (hend' : EndsNumeral stop') :
    element = element' ∧ stop = stop' := by
  obtain rfl := hgap.eq_of_starts hgap' helement.starts helement'.starts
  exact ih hend element' stop' helement' hend'

/-- No text can be read in two ways. -/
theorem Reads.onlyReading {input rest : List Char} {phrase : Phrase}
    (h : Reads input phrase rest) : OnlyReading input phrase rest := by
  induction h with
  | null | yes | no =>
      intro _ document' rest' h' _
      cases h' with
      | number hnumeral => exact absurd hnumeral.head (by decide)
      | _ => exact ⟨rfl, rfl⟩
  | number hnumeral =>
      intro hend document' rest' h' hend'
      obtain ⟨numeral', rfl, hnumeral'⟩ := Reads.exists_numeral hnumeral h'
      obtain ⟨rfl, rfl⟩ := hnumeral.unique hnumeral' hend hend'
      exact ⟨rfl, rfl⟩
  | text htext =>
      intro _ document' rest' h' _
      cases h' with
      | number hnumeral => exact absurd hnumeral.head (by decide)
      | text htext' =>
          obtain ⟨rfl, rfl⟩ := htext.unique htext'
          exact ⟨rfl, rfl⟩
  | list _ ih =>
      intro _ document' rest' h' _
      cases h' with
      | number hnumeral => exact absurd hnumeral.head (by decide)
      | list hitems' =>
          obtain ⟨rfl, rfl⟩ := ih _ _ hitems'
          exact ⟨rfl, rfl⟩
  | record _ ih =>
      intro _ document' rest' h' _
      cases h' with
      | number hnumeral => exact absurd hnumeral.head (by decide)
      | record hmembers' =>
          obtain ⟨rfl, rfl⟩ := ih _ _ hmembers'
          exact ⟨rfl, rfl⟩
  | member hkey hcolon hgap hvalue ih =>
      intro hend member' rest' h' hend'
      cases h' with
      | member hkey' hcolon' hgap' hvalue' =>
          obtain ⟨rfl, rfl⟩ := hkey.unique hkey'
          obtain ⟨-, rfl⟩ := hcolon.unique hcolon' rfl rfl
          obtain ⟨rfl, rfl⟩ := ih.element_eq hgap hvalue hend hgap' hvalue' hend'
          exact ⟨rfl, rfl⟩
  | nothing hclose =>
      intro elements' rest' h'
      cases h' with
      | nothing hclose' =>
          exact ⟨rfl, (hclose.unique hclose' (Bracket.isGap_close _) (Bracket.isGap_close _)).2⟩
      | last hgap helement _ | more hgap helement _ _ =>
          exact absurd helement.starts (hclose.not_starts hgap)
  | last hgap helement hclose ih =>
      intro elements' rest' h'
      cases h' with
      | nothing hclose' => exact absurd helement.starts (hclose'.not_starts hgap)
      | last hgap' helement' hclose' =>
          obtain ⟨rfl, rfl⟩ := ih.element_eq hgap helement hclose.endsNumeral_close hgap' helement'
            hclose'.endsNumeral_close
          exact ⟨rfl, (hclose.unique hclose' (Bracket.isGap_close _) (Bracket.isGap_close _)).2⟩
      | more hgap' helement' hcomma' _ =>
          obtain ⟨rfl, rfl⟩ := ih.element_eq hgap helement hclose.endsNumeral_close hgap' helement'
            hcomma'.endsNumeral_comma
          have hcomma := (hclose.unique hcomma' (Bracket.isGap_close _) rfl).1
          exact absurd hcomma (Bracket.close_ne_comma _)
  | more hgap helement hcomma _ ih ihelements =>
      intro elements' rest' h'
      cases h' with
      | nothing hclose' => exact absurd helement.starts (hclose'.not_starts hgap)
      | last hgap' helement' hclose' =>
          obtain ⟨rfl, rfl⟩ := ih.element_eq hgap helement hcomma.endsNumeral_comma hgap' helement'
            hclose'.endsNumeral_close
          have hcomma := (hclose'.unique hcomma (Bracket.isGap_close _) rfl).1
          exact absurd hcomma (Bracket.close_ne_comma _)
      | more hgap' helement' hcomma' helements' =>
          obtain ⟨rfl, rfl⟩ := ih.element_eq hgap helement hcomma.endsNumeral_comma hgap' helement'
            hcomma'.endsNumeral_comma
          obtain ⟨-, rfl⟩ := hcomma.unique hcomma' rfl rfl
          obtain ⟨hmore, rfl⟩ := ihelements _ _ helements'
          exact ⟨congrArg _ hmore, rfl⟩

/-- No text stands for two documents. -/
theorem Denotes.unique {input : List Char} {document document' : Document}
    (h : Denotes input document) (h' : Denotes input document') : document = document' := by
  obtain ⟨start, stop, hstart, hvalue, hstop⟩ := h
  obtain ⟨start', stop', hstart', hvalue', hstop'⟩ := h'
  have hnil : EndsNumeral [] := fun _ hc => by cases hc
  exact (hvalue.onlyReading.element_eq hstart hvalue (hstop.endsNumeral hnil) hstart' hvalue'
    (hstop'.endsNumeral hnil)).1

end FormatCheck.Json
