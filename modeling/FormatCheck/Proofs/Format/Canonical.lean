import FormatCheck.Proofs.Format.Decomposition
import Mathlib.Algebra.Group.Nat.Defs
import Mathlib.Data.List.Nodup

/-! # Canonical texts of specifiers

The parts of a canonical text run together without separators, and are told apart all
the same: printing a specifier and parsing it gives it back, except for the few values
that no text can give. -/

namespace FormatCheck

/-! ## Leading zeros -/

namespace Decimal

theorem value_cons (d : Char) (ds : List Char) :
    value (d :: ds) = 10 ^ ds.length * (d.toNat - '0'.toNat) + value ds := by
  rw [value, Nat.ofDigitChars_cons, Nat.ofDigitChars_eq_ofDigitChars_zero]
  simp [value]

/-- A run of digits that does not start with a zero does not denote zero. -/
theorem value_ne_zero {d : Char} {ds : List Char} (hdigit : d.isDigit = true) (hzero : d ≠ '0') :
    value (d :: ds) ≠ 0 := by
  have hle : '0'.toNat ≤ d.toNat := by
    simp only [Char.isDigit, Bool.and_eq_true, decide_eq_true_eq] at hdigit
    exact UInt32.le_iff_toNat_le.mp hdigit.1
  have hne : d.toNat ≠ '0'.toNat := fun h => hzero (Char.toNat_inj.mp h)
  have hdiff : 0 < d.toNat - '0'.toNat := by omega
  have hpow : 0 < 10 ^ ds.length := Nat.pow_pos (by decide)
  have hmul := Nat.mul_pos hpow hdiff
  rw [value_cons]
  omega

end Decimal

/-! ## What reading can give -/

/-- The specifiers that can be written: they break no rule, neither position nor width
is zero, and conversions without an upper case are in lower case. -/
structure Specifier.Writable (specifier : Specifier) : Prop where
  valid : specifier.fault? = none
  index_ne_zero : specifier.index ≠ .explicit 0
  width_ne_zero : specifier.width ≠ some 0
  lowercase : specifier.conversion ∈ [.decimal, .octal, .fixed, .percent, .lineSeparator] →
    specifier.uppercase = false

theorem Conversion.hasUppercase_eq_false_iff (conversion : Conversion) :
    conversion.hasUppercase = false ↔
      conversion ∈ [decimal, octal, fixed, percent, lineSeparator] := by
  cases conversion <;> simp [hasUppercase]

theorem Specifier.Writable.hasUppercase {specifier : Specifier} (h : specifier.Writable)
    (hupper : specifier.uppercase = true) : specifier.conversion.hasUppercase = true := by
  rw [← Bool.not_eq_false, Conversion.hasUppercase_eq_false_iff]
  intro hmem
  simp [h.lowercase hmem] at hupper

theorem Opening.index_ne_zero (opening : Opening) : opening.index ≠ .explicit 0 := by
  rw [index]
  split
  · simp
  · intro h
    cases hposition : opening.position with
    | none => simp [hposition, positionIndex] at h
    | some numeral =>
        simp only [hposition, positionIndex, Index.explicit.injEq] at h
        exact opening.position_ne_zero numeral hposition h

theorem Opening.width_ne_zero (opening : Opening) :
    opening.width.map Numeral.word ≠ some 0 := by
  intro h
  obtain ⟨numeral, hwidth, hword⟩ := Option.map_eq_some_iff.mp h
  obtain ⟨d, ds, hdigits⟩ := List.exists_cons_of_ne_nil numeral.nonempty
  have hzero : d ≠ '0' := by
    intro hd
    exact opening.width_head numeral hwidth (by simp [hdigits, hd])
  have hvalue : Decimal.value (d :: ds) ≠ 0 :=
    Decimal.value_ne_zero (numeral.isDigit d (by simp [hdigits])) hzero
  rw [← hdigits, ← numeral.toNat_word, hword] at hvalue
  exact hvalue rfl

theorem Spelling.writable {spelling : Spelling} (h : spelling.specifier.fault? = none) :
    spelling.specifier.Writable where
  valid := h
  index_ne_zero := spelling.opening.index_ne_zero
  width_ne_zero := spelling.opening.width_ne_zero
  lowercase := by
    intro hmem
    have hnone : spelling.conversion.hasUppercase = false :=
      (Conversion.hasUppercase_eq_false_iff _).mpr hmem
    rw [← Bool.not_eq_true]
    intro hupper
    rw [spelling.hasUppercase hupper] at hnone
    cases hnone

/-! ## Canonical spellings -/

namespace Index

def position? : Index → Option UInt32
  | explicit position => some position
  | relative | implicit => none

def marks : Index → List Mark
  | relative => [.relative]
  | explicit _ | implicit => []

end Index

theorem Flags.nodup_toList (flags : Flags) : flags.toList.Nodup :=
  List.Pairwise.filter _ (by decide : Flag.all.Nodup)

@[simp] theorem Flags.ofList_toList (flags : Flags) : .ofList flags.toList = flags := by
  apply Flags.ext_contains
  intro flag
  rw [Flags.contains_ofList, Bool.eq_iff_iff]
  simp

namespace Specifier

def marks (specifier : Specifier) : List Mark :=
  specifier.index.marks ++ specifier.flags.toList.map .flag

theorem nodup_marks (specifier : Specifier) : specifier.marks.Nodup := by
  have hflags : (specifier.flags.toList.map Mark.flag).Nodup :=
    List.Nodup.map (fun _ _ h => Mark.flag.inj h) specifier.flags.nodup_toList
  cases hindex : specifier.index with
  | relative => simp [marks, hindex, Index.marks, hflags]
  | explicit _ | implicit => simpa [marks, hindex, Index.marks] using hflags

theorem filterMap_marks (specifier : Specifier) :
    specifier.marks.filterMap Mark.flag? = specifier.flags.toList := by
  have hindex : specifier.index.marks.filterMap Mark.flag? = [] := by
    cases specifier.index <;> rfl
  have hflags : Mark.flag? ∘ Mark.flag = some := rfl
  rw [marks, List.filterMap_append, hindex, List.filterMap_map, hflags, List.filterMap_some,
    List.nil_append]

/-- The parts of a canonical text before the conversion. -/
def opening (specifier : Specifier) (h : specifier.Writable) : Opening where
  position := specifier.index.position?.map Numeral.ofWord
  marks := specifier.marks
  width := specifier.width.map Numeral.ofWord
  precision := specifier.precision.map Numeral.ofWord
  position_ne_zero := by
    intro numeral hnumeral
    obtain ⟨position, hposition, rfl⟩ := Option.map_eq_some_iff.mp hnumeral
    rw [Numeral.word_ofWord]
    intro hzero
    subst hzero
    cases hindex : specifier.index <;> simp [hindex, Index.position?] at hposition
    exact h.index_ne_zero (hposition ▸ hindex)
  marks_nodup := specifier.nodup_marks
  width_head := by
    intro numeral hnumeral
    obtain ⟨width, hwidth, rfl⟩ := Option.map_eq_some_iff.mp hnumeral
    apply Decimal.head?_digits
    intro hzero
    exact h.width_ne_zero (hwidth.trans (congrArg some (UInt32.toNat_inj.mp hzero)))

def spelling (specifier : Specifier) (h : specifier.Writable) : Spelling where
  opening := specifier.opening h
  conversion := specifier.conversion
  uppercase := specifier.uppercase
  hasUppercase := h.hasUppercase

theorem index_opening (specifier : Specifier) (h : specifier.Writable) :
    (specifier.opening h).index = specifier.index := by
  cases hindex : specifier.index <;>
    simp [Opening.index, opening, marks, hindex, Index.marks, Index.position?,
      Opening.positionIndex]

theorem specifier_spelling (specifier : Specifier) (h : specifier.Writable) :
    (specifier.spelling h).specifier = specifier := by
  have hword : Numeral.word ∘ Numeral.ofWord = id := funext Numeral.word_ofWord
  have hspecifier : (specifier.spelling h).specifier =
      { specifier with
        index := (specifier.opening h).index
        flags := .ofList (specifier.marks.filterMap Mark.flag?)
        width := (specifier.width.map Numeral.ofWord).map Numeral.word
        precision := (specifier.precision.map Numeral.ofWord).map Numeral.word } := rfl
  rw [hspecifier, index_opening, filterMap_marks, Flags.ofList_toList, Option.map_map,
    Option.map_map, hword, Option.map_id, id, id]

theorem chars_spelling (specifier : Specifier) (h : specifier.Writable) :
    '%' :: (specifier.spelling h).chars = specifier.chars := by
  have hwidth : Numeral.chars (specifier.width.map Numeral.ofWord) =
      widthChars specifier.width := by
    cases specifier.width <;> rfl
  have hprecision : Opening.precisionChars (specifier.precision.map Numeral.ofWord) =
      precisionChars specifier.precision := by
    cases specifier.precision <;> rfl
  have hindex : Opening.positionChars (specifier.index.position?.map Numeral.ofWord) ++
      specifier.index.marks.map Mark.toChar = specifier.index.chars := by
    cases specifier.index <;>
      simp [Index.position?, Index.marks, Index.chars, Opening.positionChars, Mark.toChar,
        Numeral.ofWord]
  have hflags : (specifier.flags.toList.map Mark.flag).map Mark.toChar = specifier.flags.chars := by
    simp [Flags.chars, Mark.toChar]
  have hchars : (specifier.spelling h).chars =
      (Opening.positionChars (specifier.index.position?.map Numeral.ofWord) ++
        (specifier.marks.map Mark.toChar ++ (Numeral.chars (specifier.width.map Numeral.ofWord) ++
          Opening.precisionChars (specifier.precision.map Numeral.ofWord)))) ++
        specifier.conversionChars := rfl
  rw [hchars, hwidth, hprecision, chars, ← hindex, marks, List.map_append, hflags]
  simp

end Specifier

/-! ## Printing and parsing -/

/-- The chunk that is printed. -/
def Specifier.chunk (specifier : Specifier) (h : specifier.Writable) : Chunk :=
  .specifier (specifier.spelling h) (by rw [specifier.specifier_spelling h]; exact h.valid)

theorem Specifier.chars_chunk (specifier : Specifier) (h : specifier.Writable) :
    (specifier.chunk h).chars = specifier.chars :=
  specifier.chars_spelling h

theorem Specifier.segment_chunk (specifier : Specifier) (h : specifier.Writable) :
    (specifier.chunk h).segment = .specifier specifier := by
  rw [chunk, Chunk.segment, specifier.specifier_spelling h]

theorem Chunk.writable_of_segment {chunk : Chunk} {specifier : Specifier}
    (h : chunk.segment = .specifier specifier) : specifier.Writable := by
  cases chunk with
  | plain text _ _ => cases h
  | specifier spelling hvalid =>
      obtain rfl : spelling.specifier = specifier := Segment.specifier.inj h
      exact Spelling.writable hvalid

theorem parse_text_of_writable {specifier : Specifier} (h : specifier.Writable) :
    parse specifier.text =
      .ok [⟨.specifier specifier, 0, Text.byteLength specifier.chars⟩] := by
  refine parse_eq_ok_iff.mpr ⟨[specifier.chunk h], ?_, .singleton _, ?_⟩
  · simp [specifier.chars_chunk h, Specifier.text]
  · simp [Chunk.located, specifier.chars_chunk h, specifier.segment_chunk h]

theorem Chunk.exists_of_mem_located {chunks : List Chunk} {offset : Nat}
    {segment : Located Segment} (h : segment ∈ located offset chunks) :
    ∃ chunk ∈ chunks, chunk.segment = segment.value := by
  induction chunks generalizing offset with
  | nil => cases h
  | cons chunk chunks ih =>
      rcases List.mem_cons.mp h with rfl | h
      · exact ⟨chunk, by simp, rfl⟩
      · obtain ⟨found, hfound, hsegment⟩ := ih h
        exact ⟨found, by simp [hfound], hsegment⟩

/-- Every specifier that is read can be written, also before a fault. -/
theorem writable_of_read {format : String} {segment : Located Segment} {specifier : Specifier}
    (h : segment ∈ (Reading.ofText format).segments) (hs : segment.value = .specifier specifier) :
    specifier.Writable := by
  obtain ⟨chunks, after, hreads, hmax, hlast, hafter⟩ := (Input.ofText format).exists_chunks
  rw [Reading.ofText, Input.read_of_chunks hreads hmax hlast] at h
  have hnil : after.read.segments = [] := by
    rcases hafter with hrest | ⟨fault, hfault⟩
    · rw [Input.read_of_nil hrest]
    · rw [after.read_eq, hfault]
  simp only [hnil, List.append_nil] at h
  obtain ⟨chunk, -, hchunk⟩ := Chunk.exists_of_mem_located h
  exact Chunk.writable_of_segment (hchunk.trans hs)

/-- The specifiers among segments, without their ranges. -/
def Segment.values (segments : List (Located Segment)) : List Specifier :=
  (specifiers segments).map Located.value

theorem Segment.getElem?_values {segments : List (Located Segment)} {place : Nat}
    {specifier : Specifier} {span : Span}
    (h : (specifiers segments)[place]? = some ⟨specifier, span⟩) :
    (values segments)[place]? = some specifier := by
  rw [values, List.getElem?_map, h, Option.map_some]

theorem Segment.mem_values {segments : List (Located Segment)} {specifier : Specifier} :
    specifier ∈ values segments ↔
      ∃ segment ∈ segments, segment.value = .specifier specifier := by
  have hspecifier? : ∀ segment : Segment,
      segment.specifier? = some specifier ↔ segment = .specifier specifier := by
    intro segment
    cases segment <;> simp [specifier?]
  simp [values, specifiers, List.mem_map, List.mem_filterMap, hspecifier?]

theorem writable_of_parse {format : String} {segments : List (Located Segment)}
    {specifier : Specifier} (h : parse format = .ok segments)
    (hmem : specifier ∈ Segment.values segments) : specifier.Writable := by
  obtain ⟨segment, hsegment, hvalue⟩ := Segment.mem_values.mp hmem
  obtain ⟨chunks, -, -, rfl⟩ := parse_eq_ok_iff.mp h
  obtain ⟨chunk, -, hchunk⟩ := Chunk.exists_of_mem_located hsegment
  exact Chunk.writable_of_segment (hchunk.trans hvalue)

theorem writable_of_parse_text {specifier : Specifier} {span : Span}
    (h : parse specifier.text = .ok [⟨.specifier specifier, span⟩]) : specifier.Writable := by
  obtain ⟨chunks, -, -, hlocated⟩ := parse_eq_ok_iff.mp h
  have hmem : ⟨.specifier specifier, span⟩ ∈ Chunk.located 0 chunks := by simp [hlocated]
  obtain ⟨chunk, -, hchunk⟩ := Chunk.exists_of_mem_located hmem
  exact Chunk.writable_of_segment hchunk

/-- Printing and parsing are inverse to each other exactly on the specifiers that can
be written, and no other specifier is ever read. -/
theorem parse_text_inverse :
    (∀ specifier : Specifier,
      parse specifier.text = .ok [⟨.specifier specifier, 0, Text.byteLength specifier.chars⟩] ↔
        specifier.Writable) ∧
    ∀ (format : String) (segment : Located Segment) (specifier : Specifier),
      segment ∈ (Reading.ofText format).segments → segment.value = .specifier specifier →
        specifier.Writable ∧ parse specifier.text =
          .ok [⟨.specifier specifier, 0, Text.byteLength specifier.chars⟩] := by
  refine ⟨fun specifier => ⟨writable_of_parse_text, parse_text_of_writable⟩, ?_⟩
  intro format segment specifier hmem hsegment
  have h := writable_of_read hmem hsegment
  exact ⟨h, parse_text_of_writable h⟩

/-- The flags are read out of order, the relative mark wins over the position, and the
fault behind the specifier changes nothing. -/
theorem parse_text_inverse_before_fault :
    parse "%<+,8.3G" =
      .ok [⟨.specifier ⟨.relative, .ofList [.plus, .group], some 8, some 3, .general, true⟩,
        0, 8⟩] :=
  (parse_text_inverse.2 "a%02$,<+8.3G%?"
    ⟨.specifier ⟨.relative, .ofList [.plus, .group], some 8, some 3, .general, true⟩, 1, 12⟩ _
    (by decide +kernel) rfl).2

end FormatCheck
