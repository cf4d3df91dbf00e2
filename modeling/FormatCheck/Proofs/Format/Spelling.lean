import FormatCheck.Format.Reader

/-! # Written specifiers

After its `%` a specifier is written as a position with `$`, marks, a width, a point
with a precision, and a conversion, in this order. Only the conversion must be there.
The rules do not invoke the reader. -/

namespace FormatCheck

/-! ## Numerals -/

/-- A run of digits whose number fits in 32 bits. Leading zeros are allowed. -/
structure Numeral where
  digits : List Char
  nonempty : digits ≠ []
  isDigit : ∀ d ∈ digits, d.isDigit = true
  fits : Decimal.value digits < UInt32.size

namespace Numeral

theorem ext_digits {numeral other : Numeral} (h : numeral.digits = other.digits) :
    numeral = other := by
  cases numeral
  cases other
  simpa using h

def word (numeral : Numeral) : UInt32 :=
  UInt32.ofNat (Decimal.value numeral.digits)

theorem toNat_word (numeral : Numeral) : numeral.word.toNat = Decimal.value numeral.digits :=
  UInt32.toNat_ofNat_of_lt numeral.fits

theorem word?_digits (numeral : Numeral) :
    Decimal.word? numeral.digits = some numeral.word := by
  simp [Decimal.word?, numeral.fits, word]

/-- A run of digits that denotes a 32-bit number is a numeral. -/
theorem exists_of_word? {ds : List Char} {n : UInt32} (hne : ds ≠ [])
    (hdigits : ∀ d ∈ ds, d.isDigit = true) (h : Decimal.word? ds = some n) :
    ∃ numeral : Numeral, numeral.digits = ds ∧ numeral.word = n := by
  by_cases hfits : Decimal.value ds < UInt32.size
  · simp only [Decimal.word?, hfits, ↓reduceIte, Option.some.injEq] at h
    exact ⟨⟨ds, hne, hdigits, hfits⟩, rfl, h⟩
  · simp [Decimal.word?, hfits] at h

/-- The digits of a number, without leading zeros. -/
def ofWord (n : UInt32) : Numeral where
  digits := Decimal.digits n.toNat
  nonempty := Decimal.digits_ne_nil n.toNat
  isDigit := fun _ => Decimal.isDigit_of_mem_digits
  fits := by rw [Decimal.value_digits]; exact n.toNat_lt_size

@[simp] theorem word_ofWord (n : UInt32) : (ofWord n).word = n := by
  simp [word, ofWord]

/-- The digits of a numeral that may be missing. -/
def chars : Option Numeral → List Char
  | some numeral => numeral.digits
  | none => []

theorem chars_injective {numeral other : Option Numeral} (h : chars numeral = chars other) :
    numeral = other := by
  cases numeral with
  | none =>
      cases other with
      | none => rfl
      | some other => exact absurd h.symm other.nonempty
  | some numeral =>
      cases other with
      | none => exact absurd h numeral.nonempty
      | some other => rw [ext_digits h]

end Numeral

/-! ## Marks -/

namespace Mark

def toChar : Mark → Char
  | flag found => found.toChar
  | relative => '<'

@[simp] theorem ofChar?_toChar (mark : Mark) : ofChar? mark.toChar = some mark := by
  cases mark with
  | flag found => cases found <;> decide
  | relative => rfl

theorem ofChar?_eq_some_iff {c : Char} {mark : Mark} :
    ofChar? c = some mark ↔ mark.toChar = c := by
  constructor
  · intro h
    by_cases hc : c = '<'
    · subst hc
      simp [ofChar?] at h
      simp [← h, toChar]
    · simp only [ofChar?, hc, ↓reduceIte, Option.map_eq_some_iff] at h
      obtain ⟨flag, hflag, rfl⟩ := h
      exact Flag.ofChar?_eq_some_iff.mp hflag
  · intro h
    rw [← h, ofChar?_toChar]

theorem toChar_ne_dollar (mark : Mark) : mark.toChar ≠ '$' := by
  cases mark with
  | flag found => cases found <;> decide
  | relative => decide

/-- The only digit among the marks is the one that no width starts with. -/
theorem ofChar?_eq_none_of_isDigit {c : Char} (hdigit : c.isDigit = true) (hzero : c ≠ '0') :
    ofChar? c = none := by
  have hmarks : ∀ mark : Mark, mark.toChar.isDigit = true → mark.toChar = '0' := by
    intro mark
    cases mark with
    | flag found => cases found <;> decide
    | relative => decide
  cases hc : ofChar? c with
  | none => rfl
  | some mark =>
      obtain rfl := ofChar?_eq_some_iff.mp hc
      exact absurd (hmarks mark hdigit) hzero

theorem toChar_injective {mark other : Mark} (h : mark.toChar = other.toChar) : mark = other := by
  have hmark := ofChar?_toChar mark
  rw [h, ofChar?_toChar] at hmark
  exact (Option.some.inj hmark).symm

/-- The flag that a mark stands for, if it is not the relative mark. -/
def flag? : Mark → Option Flag
  | flag found => some found
  | relative => none

theorem flag?_eq_some_iff {mark : Mark} {found : Flag} :
    mark.flag? = some found ↔ mark = .flag found := by
  cases mark <;> simp [flag?]

end Mark

theorem Flags.contains_ofList (members : List Flag) (flag : Flag) :
    (Flags.ofList members).contains flag = decide (flag ∈ members) := by
  have h : ∀ flags : Flags, (members.foldl Flags.insert flags).contains flag =
      (decide (flag ∈ members) || flags.contains flag) := by
    induction members with
    | nil => simp
    | cons first members ih =>
        intro flags
        rw [List.foldl_cons, ih, Flags.contains_insert]
        by_cases hf : flag = first
        · simp [hf]
        · have hne : (flag == first) = false := by simp [hf]
          simp [hf, hne]
  simpa [Flags.ofList] using h .empty

/-! ## Conversions -/

/-- A conversion as written: upper case changes its first character only. -/
def Conversion.written (conversion : Conversion) (uppercase : Bool) : List Char :=
  (if uppercase then conversion.toChar.toUpper else conversion.toChar) :: conversion.suffix

/-- No part that may stand before a conversion can start with its first character. -/
theorem Conversion.head_written {conversion : Conversion} {uppercase : Bool} {c : Char}
    (h : c ∈ (conversion.written uppercase).head?) :
    c.isDigit = false ∧ Mark.ofChar? c = none ∧ c ≠ '.' ∧ c ≠ '$' := by
  obtain rfl : (if uppercase then conversion.toChar.toUpper else conversion.toChar) = c := by
    simpa [written] using h
  cases conversion with
  | dateTime field => simp only [toChar]; cases uppercase <;> decide
  | _ => cases uppercase <;> decide

/-- Date/time conversions are written with two characters. -/
theorem Conversion.written_dateTime (field : DateField) {c : Char} (hc : c = 't' ∨ c = 'T') :
    (dateTime field).written (decide (c = 'T')) = [c, field.toChar] := by
  have hupper : 't'.toUpper = 'T' := by decide
  rcases hc with rfl | rfl <;> simp [written, toChar, suffix, hupper]

/-- All other conversions are written with one, whose case shows. -/
theorem Conversion.exists_written {conversion : Conversion} {uppercase : Bool}
    (hdate : ∀ field, conversion ≠ dateTime field)
    (hupper : uppercase = true → conversion.hasUppercase = true) :
    ∃ c : Char, conversion.written uppercase = [c] ∧ c.isUpper = uppercase ∧ c ≠ 't' ∧ c ≠ 'T' := by
  cases uppercase with
  | false =>
      cases conversion with
      | dateTime field => exact absurd rfl (hdate field)
      | _ => exact ⟨_, rfl, by decide, by decide, by decide⟩
  | true =>
      have hupper := hupper rfl
      cases conversion with
      | dateTime field => exact absurd rfl (hdate field)
      | decimal | octal | fixed | percent | lineSeparator => cases hupper
      | _ => exact ⟨_, rfl, by decide, by decide, by decide⟩

/-- A single character selects the conversion that is written with it. -/
theorem Conversion.ofChar?_eq_some_iff {c : Char} {conversion : Conversion} :
    ofChar? c = some conversion ↔
      conversion.written c.isUpper = [c] ∧ (c.isUpper = true → conversion.hasUppercase = true) := by
  constructor
  · intro h
    unfold ofChar? at h
    split at h <;> cases h <;> decide
  · intro h
    obtain ⟨h, hupper⟩ := h
    cases conversion with
    | dateTime field => simp [written, suffix] at h
    | _ =>
        cases hc : c.isUpper <;>
          simp [hc, written, suffix, toChar, hasUppercase] at h hupper <;> subst h <;> decide

/-! ## Spellings -/

/-- The parts of a specifier before its conversion as they are written, with all that
their order demands of them. -/
structure Opening where
  position : Option Numeral
  marks : List Mark
  width : Option Numeral
  precision : Option Numeral
  position_ne_zero : ∀ numeral ∈ position, numeral.word ≠ 0
  marks_nodup : marks.Nodup
  width_head : ∀ numeral ∈ width, numeral.digits.head? ≠ some '0'

namespace Opening

def positionChars : Option Numeral → List Char
  | some numeral => numeral.digits ++ ['$']
  | none => []

def precisionChars : Option Numeral → List Char
  | some numeral => '.' :: numeral.digits
  | none => []

def chars (opening : Opening) : List Char :=
  positionChars opening.position ++ (opening.marks.map Mark.toChar ++
    (Numeral.chars opening.width ++ precisionChars opening.precision))

theorem positionChars_injective {position other : Option Numeral}
    (h : positionChars position = positionChars other) : position = other := by
  cases position with
  | none => cases other <;> simp_all [positionChars]
  | some numeral =>
      cases other with
      | none => simp [positionChars] at h
      | some other => rw [Numeral.ext_digits (List.append_cancel_right h)]

theorem precisionChars_injective {precision other : Option Numeral}
    (h : precisionChars precision = precisionChars other) : precision = other := by
  cases precision with
  | none => cases other <;> simp_all [precisionChars]
  | some numeral =>
      cases other with
      | none => simp [precisionChars] at h
      | some other => rw [Numeral.ext_digits (List.cons.inj h).2]

theorem eq_point_of_head {precision : Option Numeral} {c : Char}
    (h : c ∈ (precisionChars precision).head?) : c = '.' := by
  cases precision with
  | none => simp [precisionChars] at h
  | some numeral => simpa [precisionChars, eq_comm] using h

/-- A width does not start with a mark. -/
theorem ofChar?_of_head_width {opening : Opening} {c : Char}
    (h : c ∈ (Numeral.chars opening.width).head?) : Mark.ofChar? c = none := by
  cases hwidth : opening.width with
  | none => simp [hwidth, Numeral.chars] at h
  | some numeral =>
      have hc : numeral.digits.head? = some c := by simpa [hwidth, Numeral.chars] using h
      have hzero : c ≠ '0' := by
        intro hzero
        exact opening.width_head numeral hwidth (hzero ▸ hc)
      exact Mark.ofChar?_eq_none_of_isDigit
        (numeral.isDigit c (List.mem_of_mem_head? hc)) hzero

/-- Only a position is written with `$`. -/
theorem dollar_notMem_chars {opening : Opening} (h : opening.position = none) :
    '$' ∉ opening.chars := by
  have hnumeral : ∀ numeral : Numeral, '$' ∉ numeral.digits :=
    fun numeral h => absurd (numeral.isDigit '$' h) (by decide)
  have hmarks : '$' ∉ opening.marks.map Mark.toChar := by
    simp [Mark.toChar_ne_dollar]
  have hwidth : '$' ∉ Numeral.chars opening.width := by
    cases opening.width <;> simp [Numeral.chars, hnumeral]
  have hprecision : '$' ∉ precisionChars opening.precision := by
    cases opening.precision <;> simp [precisionChars, hnumeral]
  simp [chars, h, positionChars, hmarks, hwidth, hprecision]

def positionIndex : Option Numeral → Index
  | some numeral => .explicit numeral.word
  | none => .implicit

/-- The relative mark wins over a position. -/
def index (opening : Opening) : Index :=
  if .relative ∈ opening.marks then .relative else positionIndex opening.position

/-- The specifier that a conversion completes. -/
def specifier (opening : Opening) (conversion : Conversion) (uppercase : Bool) : Specifier where
  index := opening.index
  flags := .ofList (opening.marks.filterMap Mark.flag?)
  width := opening.width.map Numeral.word
  precision := opening.precision.map Numeral.word
  conversion := conversion
  uppercase := uppercase

end Opening

/-- A specifier as it is written. -/
structure Spelling where
  opening : Opening
  conversion : Conversion
  uppercase : Bool
  hasUppercase : uppercase = true → conversion.hasUppercase = true

namespace Spelling

/-- What is written after the `%`. -/
def chars (spelling : Spelling) : List Char :=
  spelling.opening.chars ++ spelling.conversion.written spelling.uppercase

/-- The specifier that is written. -/
def specifier (spelling : Spelling) : Specifier :=
  spelling.opening.specifier spelling.conversion spelling.uppercase

end Spelling

end FormatCheck
