import FormatCheck.Batch.Escape

/-! # What escapes stand for

A text with escapes stands for one text if every backslash in it, paired from left to right,
starts an escape. Otherwise it has one fault, at the first backslash that does not. -/

namespace FormatCheck

namespace Escape

/-- The escapes: what follows the backslash, and what the two stand for. -/
def pairs : List (Char × Char) :=
  [('t', '\t'), ('n', '\n'), ('r', '\r'), ('\\', '\\')]

/-- A text as it is written, and the text that it stands for. -/
inductive Stands : List Char → List Char → Prop where
  | nil : Stands [] []
  | plain {c : Char} {written meant : List Char} (hc : c ≠ '\\') (h : Stands written meant) :
      Stands (c :: written) (c :: meant)
  | escape {c decoded : Char} {written meant : List Char} (hpair : (c, decoded) ∈ pairs)
      (h : Stands written meant) : Stands ('\\' :: c :: written) (decoded :: meant)

/-- The text is put together from escapes and characters that are no backslashes. -/
def IsWritten (written : List Char) : Prop :=
  ∃ meant, Stands written meant

/-- What is wrong with a text: behind a part that is well written, a backslash is followed by a
character that makes no escape, or by nothing. -/
inductive FailsWith : List Char → EscapeFault → Prop where
  | unknown {front rest : List Char} {c : Char} (hfront : IsWritten front)
      (hpair : ∀ decoded, (c, decoded) ∉ pairs) :
      FailsWith (front ++ '\\' :: c :: rest) (.unknown c)
  | trailing {front : List Char} (hfront : IsWritten front) :
      FailsWith (front ++ ['\\']) .trailing

theorem ofChar?_eq_some_iff {c decoded : Char} :
    ofChar? c = some decoded ↔ (c, decoded) ∈ pairs := by
  constructor
  · intro h
    unfold ofChar? at h
    split at h <;> cases h <;> decide
  · intro h
    simp only [pairs, List.mem_cons, Prod.mk.injEq, List.not_mem_nil, or_false] at h
    rcases h with ⟨rfl, rfl⟩ | ⟨rfl, rfl⟩ | ⟨rfl, rfl⟩ | ⟨rfl, rfl⟩ <;> rfl

theorem ofChar?_eq_none_iff {c : Char} :
    ofChar? c = none ↔ ∀ decoded, (c, decoded) ∉ pairs := by
  simp only [Option.eq_none_iff_forall_ne_some, ne_eq, ofChar?_eq_some_iff]

theorem decodeFrom_of_ne {c : Char} (hc : c ≠ '\\') (decoded rest : List Char) :
    decodeFrom decoded (c :: rest) = decodeFrom (c :: decoded) rest := by
  cases rest <;> simp [decodeFrom, hc]

/-- A part that is well written is decoded whatever follows it. -/
theorem Stands.decodeFrom_append {front meant : List Char} (h : Stands front meant)
    (decoded rest : List Char) :
    decodeFrom decoded (front ++ rest) = decodeFrom (meant.reverse ++ decoded) rest := by
  induction h generalizing decoded with
  | nil => rfl
  | plain hc _ ih =>
      rw [List.cons_append, decodeFrom_of_ne hc, ih]
      simp
  | escape hpair _ ih =>
      simp only [List.cons_append, decodeFrom, ofChar?_eq_some_iff.mpr hpair, ih]
      simp

theorem FailsWith.plain {c : Char} {written : List Char} {fault : EscapeFault} (hc : c ≠ '\\')
    (h : FailsWith written fault) : FailsWith (c :: written) fault := by
  cases h with
  | @unknown front rest found hfront hpair =>
      obtain ⟨meant, hmeant⟩ := hfront
      exact @FailsWith.unknown (c :: front) rest found ⟨c :: meant, hmeant.plain hc⟩ hpair
  | @trailing front hfront =>
      obtain ⟨meant, hmeant⟩ := hfront
      exact @FailsWith.trailing (c :: front) ⟨c :: meant, hmeant.plain hc⟩

theorem FailsWith.escape {c decoded : Char} {written : List Char} {fault : EscapeFault}
    (hpair : (c, decoded) ∈ pairs) (h : FailsWith written fault) :
    FailsWith ('\\' :: c :: written) fault := by
  cases h with
  | @unknown front rest found hfront hnone =>
      obtain ⟨meant, hmeant⟩ := hfront
      exact @FailsWith.unknown ('\\' :: c :: front) rest found
        ⟨decoded :: meant, hmeant.escape hpair⟩ hnone
  | @trailing front hfront =>
      obtain ⟨meant, hmeant⟩ := hfront
      exact @FailsWith.trailing ('\\' :: c :: front) ⟨decoded :: meant, hmeant.escape hpair⟩

/-- Every text is well written or has a fault. -/
theorem isWritten_or_failsWith (written : List Char) :
    IsWritten written ∨ ∃ fault, FailsWith written fault := by
  -- The recursion of the decoder reads one pair, or one plain character, at a time.
  fun_induction decodeFrom [] written with
  | case1 => exact .inl ⟨[], .nil⟩
  | case2 => exact .inr ⟨.trailing, @FailsWith.trailing [] ⟨[], .nil⟩⟩
  | case3 _ c rest plain hpair ih =>
      have hpair := ofChar?_eq_some_iff.mp hpair
      rcases ih with ⟨meant, hmeant⟩ | ⟨fault, hfault⟩
      · exact .inl ⟨plain :: meant, hmeant.escape hpair⟩
      · exact .inr ⟨fault, hfault.escape hpair⟩
  | case4 _ c rest hnone =>
      exact .inr ⟨.unknown c,
        @FailsWith.unknown [] rest c ⟨[], .nil⟩ (ofChar?_eq_none_iff.mp hnone)⟩
  | case5 _ c rest hend hescape ih =>
      have hc : c ≠ '\\' := by
        rintro rfl
        cases rest with
        | nil => exact hend rfl rfl
        | cons d rest => exact hescape d rest rfl rfl
      rcases ih with ⟨meant, hmeant⟩ | ⟨fault, hfault⟩
      · exact .inl ⟨c :: meant, hmeant.plain hc⟩
      · exact .inr ⟨fault, hfault.plain hc⟩

theorem Stands.decode_eq {written meant : List Char} (h : Stands written meant) :
    decode written = .ok meant := by
  have happend := h.decodeFrom_append [] []
  rw [List.append_nil] at happend
  rw [decode, happend]
  simp [decodeFrom]

theorem FailsWith.decode_eq {written : List Char} {fault : EscapeFault}
    (h : FailsWith written fault) : decode written = .error fault := by
  cases h with
  | unknown hfront hpair =>
      obtain ⟨meant, hmeant⟩ := hfront
      rw [decode, hmeant.decodeFrom_append]
      simp only [decodeFrom, ofChar?_eq_none_iff.mpr hpair]
  | trailing hfront =>
      obtain ⟨meant, hmeant⟩ := hfront
      rw [decode, hmeant.decodeFrom_append]
      rfl

theorem decode_eq_ok_iff {written meant : List Char} :
    decode written = .ok meant ↔ Stands written meant := by
  constructor
  · intro h
    rcases isWritten_or_failsWith written with ⟨other, hother⟩ | ⟨fault, hfault⟩
    · obtain rfl := Except.ok.inj (hother.decode_eq.symm.trans h)
      exact hother
    · cases hfault.decode_eq.symm.trans h
  · exact Stands.decode_eq

theorem decode_eq_error_iff {written : List Char} {fault : EscapeFault} :
    decode written = .error fault ↔ FailsWith written fault := by
  constructor
  · intro h
    rcases isWritten_or_failsWith written with ⟨meant, hmeant⟩ | ⟨other, hother⟩
    · cases hmeant.decode_eq.symm.trans h
    · obtain rfl := Except.error.inj (hother.decode_eq.symm.trans h)
      exact hother
  · exact FailsWith.decode_eq

end Escape

end FormatCheck
