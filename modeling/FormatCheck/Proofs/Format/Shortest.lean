import FormatCheck.Proofs.Format.Canonical

/-! # Lengths of specifiers

A canonical text has no leading zeros and no marks without effect, so that no text of
the same specifier is shorter. -/

namespace FormatCheck

/-! ## Bytes and characters -/

namespace Text

theorem length_le_byteLength (cs : List Char) : cs.length ≤ byteLength cs := by
  induction cs with
  | nil => rfl
  | cons c cs ih =>
      have hc := c.utf8Size_pos
      rw [List.length_cons, byteLength_cons]
      omega

theorem byteLength_eq_length {cs : List Char} (h : ∀ c ∈ cs, c.utf8Size = 1) :
    byteLength cs = cs.length := by
  induction cs with
  | nil => rfl
  | cons c cs ih =>
      rw [byteLength_cons, h c (by simp), ih fun d hd => h d (by simp [hd]), List.length_cons,
        Nat.add_comm]

end Text

/-! ## Numerals -/

namespace Decimal

theorem utf8Size_of_isDigit {c : Char} (h : c.isDigit = true) : c.utf8Size = 1 := by
  simp only [Char.isDigit, Bool.and_eq_true, decide_eq_true_eq] at h
  exact Char.utf8Size_eq_one_iff.mpr (UInt32.le_trans h.2 (by decide))

theorem value_lt_pow {ds : List Char} (h : ∀ d ∈ ds, d.isDigit = true) :
    value ds < 10 ^ ds.length := by
  induction ds with
  | nil => decide
  | cons d ds ih =>
      have hdigit := h d (by simp)
      simp only [Char.isDigit, Bool.and_eq_true, decide_eq_true_eq] at hdigit
      have hd : d.toNat - '0'.toNat ≤ 9 :=
        Nat.sub_le_iff_le_add.mpr (UInt32.le_iff_toNat_le.mp hdigit.2)
      have hfirst := Nat.mul_le_mul_left (10 ^ ds.length) hd
      have hrest := ih fun c hc => h c (by simp [hc])
      rw [value_cons, List.length_cons, Nat.pow_succ]
      omega

/-- Only leading zeros make a numeral longer. -/
theorem length_digits_le {ds : List Char} (hne : ds ≠ []) (h : ∀ d ∈ ds, d.isDigit = true) :
    (digits (value ds)).length ≤ ds.length :=
  (Nat.length_toDigits_le_iff (by decide) (List.length_pos_iff.mpr hne)).mpr (value_lt_pow h)

end Decimal

namespace Numeral

theorem length_ofWord_word_le (numeral : Numeral) :
    (ofWord numeral.word).digits.length ≤ numeral.digits.length := by
  have h := Decimal.length_digits_le numeral.nonempty numeral.isDigit
  rwa [← numeral.toNat_word] at h

theorem utf8Size_digits (numeral : Numeral) : ∀ c ∈ numeral.digits, c.utf8Size = 1 :=
  fun c hc => Decimal.utf8Size_of_isDigit (numeral.isDigit c hc)

end Numeral

/-! ## Spellings -/

theorem Mark.utf8Size_toChar (mark : Mark) : mark.toChar.utf8Size = 1 := by
  cases mark with
  | flag found => cases found <;> decide
  | relative => decide

theorem Conversion.utf8Size_written (conversion : Conversion) (uppercase : Bool) :
    ∀ c ∈ conversion.written uppercase, c.utf8Size = 1 := by
  refine List.forall_mem_cons.mpr ⟨?_, ?_⟩
  · cases conversion with
    | dateTime _ => cases uppercase <;> simp only [toChar] <;> decide
    | _ => cases uppercase <;> decide
  · cases conversion with
    | dateTime field =>
        rw [suffix, List.forall_mem_singleton]
        cases field <;> decide
    | _ => exact List.forall_mem_nil _

theorem Conversion.length_written (conversion : Conversion) (uppercase : Bool) :
    1 ≤ (conversion.written uppercase).length ∧ (conversion.written uppercase).length ≤ 2 := by
  cases conversion <;> simp [written, suffix]

namespace Opening

theorem length_chars (opening : Opening) :
    opening.chars.length = (positionChars opening.position).length + opening.marks.length +
      (Numeral.chars opening.width).length + (precisionChars opening.precision).length := by
  simp [chars, Nat.add_assoc]

theorem utf8Size_chars (opening : Opening) : ∀ c ∈ opening.chars, c.utf8Size = 1 := by
  have hposition : ∀ c ∈ positionChars opening.position, c.utf8Size = 1 := by
    cases opening.position with
    | none => simp [positionChars]
    | some numeral =>
        intro c hc
        rcases List.mem_append.mp hc with hc | hc
        · exact numeral.utf8Size_digits c hc
        · obtain rfl := List.mem_singleton.mp hc
          decide
  have hmarks : ∀ c ∈ opening.marks.map Mark.toChar, c.utf8Size = 1 := by
    simp [Mark.utf8Size_toChar]
  have hwidth : ∀ c ∈ Numeral.chars opening.width, c.utf8Size = 1 := by
    cases opening.width with
    | none => simp [Numeral.chars]
    | some numeral => exact numeral.utf8Size_digits
  have hprecision : ∀ c ∈ precisionChars opening.precision, c.utf8Size = 1 := by
    cases opening.precision with
    | none => simp [precisionChars]
    | some numeral =>
        intro c hc
        rcases List.mem_cons.mp hc with rfl | hc
        · decide
        · exact numeral.utf8Size_digits c hc
  intro c hc
  simp only [chars, List.mem_append] at hc
  rcases hc with hc | hc | hc | hc
  · exact hposition c hc
  · exact hmarks c hc
  · exact hwidth c hc
  · exact hprecision c hc

end Opening

namespace Spelling

/-- Specifiers are written with single bytes. -/
theorem byteLength_chars (spelling : Spelling) :
    Text.byteLength spelling.chars = spelling.chars.length := by
  apply Text.byteLength_eq_length
  intro c hc
  rcases List.mem_append.mp hc with hc | hc
  · exact spelling.opening.utf8Size_chars c hc
  · exact spelling.conversion.utf8Size_written _ c hc

/-- Each mark of the canonical text is written in every text. -/
theorem marks_subset (spelling : Spelling) :
    spelling.specifier.marks ⊆ spelling.opening.marks := by
  intro mark hmark
  rcases List.mem_append.mp hmark with hmark | hmark
  · by_cases hrelative : .relative ∈ spelling.opening.marks
    · cases hindex : spelling.specifier.index with
      | relative =>
          obtain rfl : mark = .relative := by simpa [hindex, Index.marks] using hmark
          exact hrelative
      | explicit _ | implicit => simp [hindex, Index.marks] at hmark
    · have hindex : spelling.specifier.index = Opening.positionIndex spelling.opening.position :=
        if_neg hrelative
      cases hposition : spelling.opening.position <;>
        simp [hindex, hposition, Opening.positionIndex, Index.marks] at hmark
  · obtain ⟨flag, hflag, rfl⟩ := List.mem_map.mp hmark
    have hmem : flag ∈ spelling.opening.marks.filterMap Mark.flag? := by
      simpa [specifier, Opening.specifier, Flags.contains_ofList] using hflag
    obtain ⟨written, hwritten, hflag⟩ := List.mem_filterMap.mp hmem
    rwa [← Mark.flag?_eq_some_iff.mp hflag]

/-- The position of the canonical text is written in every text. -/
theorem length_position_le (spelling : Spelling) :
    (Opening.positionChars (spelling.specifier.index.position?.map Numeral.ofWord)).length ≤
      (Opening.positionChars spelling.opening.position).length := by
  by_cases hrelative : .relative ∈ spelling.opening.marks
  · have hindex : spelling.specifier.index = .relative := if_pos hrelative
    simp [hindex, Index.position?, Opening.positionChars]
  · have hindex : spelling.specifier.index = Opening.positionIndex spelling.opening.position :=
      if_neg hrelative
    cases hposition : spelling.opening.position with
    | none => simp [hindex, hposition, Opening.positionIndex, Index.position?]
    | some numeral =>
        simpa [hindex, hposition, Opening.positionIndex, Index.position?, Opening.positionChars]
          using numeral.length_ofWord_word_le

/-- No text of a specifier is shorter than the canonical one. -/
theorem length_chars_le (spelling : Spelling) (h : spelling.specifier.Writable) :
    (spelling.specifier.spelling h).chars.length ≤ spelling.chars.length := by
  have hmarks : spelling.specifier.marks.length ≤ spelling.opening.marks.length :=
    spelling.specifier.nodup_marks.length_le_of_subset spelling.marks_subset
  have hwidth : (Numeral.chars (spelling.specifier.width.map Numeral.ofWord)).length ≤
      (Numeral.chars spelling.opening.width).length := by
    cases hwidth : spelling.opening.width with
    | none => simp [specifier, Opening.specifier, hwidth]
    | some numeral =>
        simpa [specifier, Opening.specifier, hwidth, Numeral.chars]
          using numeral.length_ofWord_word_le
  have hprecision :
      (Opening.precisionChars (spelling.specifier.precision.map Numeral.ofWord)).length ≤
        (Opening.precisionChars spelling.opening.precision).length := by
    cases hprecision : spelling.opening.precision with
    | none => simp [specifier, Opening.specifier, hprecision]
    | some numeral =>
        simpa [specifier, Opening.specifier, hprecision, Opening.precisionChars]
          using numeral.length_ofWord_word_le
  have hposition := spelling.length_position_le
  have hopening : (spelling.specifier.opening h).chars.length ≤ spelling.opening.chars.length := by
    rw [Opening.length_chars, Opening.length_chars]
    exact Nat.add_le_add (Nat.add_le_add (Nat.add_le_add hposition hmarks) hwidth) hprecision
  rw [chars, chars, List.length_append, List.length_append]
  exact Nat.add_le_add_right hopening _

end Spelling

end FormatCheck
