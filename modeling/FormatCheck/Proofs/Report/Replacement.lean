import FormatCheck.Proofs.Format.Canonical
import FormatCheck.Proofs.Format.Composition
import FormatCheck.Report.Fix

/-! # Replacing one specifier

A specifier of a well-formed text can be replaced by the canonical text of any other
that can be written. Nothing around it is read otherwise; what stands behind moves. -/

namespace FormatCheck

namespace Segment

theorem values_append_cons (before after : List (Located Segment)) (specifier : Specifier)
    (span : Span) :
    values (before ++ ⟨.specifier specifier, span⟩ :: after) =
      values before ++ specifier :: values after := by
  rw [values, specifiers_append, specifiers_cons_specifier, List.map_append, List.map_cons]
  rfl

/-- Where specifiers stand does not change them. -/
theorem values_shift (segments : List (Located Segment)) (bytes : Nat) :
    values (segments.map (·.shift bytes)) = values segments := by
  rw [values, specifiers_shift, List.map_map]
  rfl

end Segment

namespace Chunk

/-- The text before and behind a specifier is made of chunks. -/
theorem exists_of_specifiers_located {offset place : Nat} {chunks : List Chunk}
    {specifier : Located Specifier}
    (h : (Segment.specifiers (located offset chunks))[place]? = some specifier) :
    ∃ front chunk back, chunks = front ++ chunk :: back ∧
      (Segment.specifiers (located offset front)).length = place ∧
      chunk.segment = .specifier specifier.value ∧
      specifier.span = ⟨offset + Text.byteLength (text front),
        offset + Text.byteLength (text front) + Text.byteLength chunk.chars⟩ := by
  induction chunks generalizing offset place with
  | nil => simp [located, Segment.specifiers] at h
  | cons chunk chunks ih =>
      cases chunk with
      | plain run hne hpercent =>
          obtain ⟨front, chunk, back, rfl, hlength, hchunk, hspan⟩ := ih h
          refine ⟨.plain run hne hpercent :: front, chunk, back, rfl, hlength, hchunk, ?_⟩
          simpa [Nat.add_assoc] using hspan
      | specifier spelling hvalid =>
          cases place with
          | zero =>
              obtain rfl := Option.some.inj h
              exact ⟨[], .specifier spelling hvalid, chunks, rfl, rfl, rfl, by simp⟩
          | succ place =>
              obtain ⟨front, chunk, back, rfl, hlength, hchunk, hspan⟩ := ih h
              refine ⟨.specifier spelling hvalid :: front, chunk, back, rfl, ?_, hchunk, ?_⟩
              · simp only [located, segment, Segment.specifiers_cons_specifier,
                  List.length_cons, hlength]
              · simpa [Nat.add_assoc] using hspan

/-! ## Other chunks in the same place -/

theorem not_isPlain_of_segment {chunk : Chunk} {specifier : Specifier}
    (h : chunk.segment = .specifier specifier) : ¬chunk.IsPlain := by
  cases chunk with
  | plain _ _ _ => cases h
  | specifier _ _ => exact id

theorem Maximal.replace {front back : List Chunk} {chunk other : Chunk}
    (h : Maximal (front ++ chunk :: back)) (hother : ¬other.IsPlain) :
    Maximal (front ++ other :: back) := by
  rw [Maximal, List.isChain_append, List.isChain_cons] at h ⊢
  obtain ⟨hfront, ⟨-, hback⟩, -⟩ := h
  refine ⟨hfront, ⟨?_, hback⟩, ?_⟩
  · intro next _ hplain
    exact hother hplain.1
  · intro last _ next hnext hplain
    obtain rfl : other = next := Option.some.inj hnext
    exact hother hplain.2

end Chunk

/-! ## Replacement -/

/-- A substitution puts its snippet between the text before and behind its range. -/
theorem Substitution.applyTo?_of_append {substitution : Substitution}
    {front middle back : List Char} (h : substitution.span =
      ⟨Text.byteLength front, Text.byteLength front + Text.byteLength middle⟩) :
    substitution.applyTo? (front ++ (middle ++ back)) =
      some (front ++ substitution.snippet.toList ++ back) := by
  have hfront : Text.cut? (Text.byteLength front) (front ++ (middle ++ back)) =
      some (front, middle ++ back) :=
    Text.cut?_eq_some_iff.mpr ⟨rfl, rfl⟩
  have hmiddle : Text.cut? (Text.byteLength middle) (middle ++ back) = some (middle, back) :=
    Text.cut?_eq_some_iff.mpr ⟨rfl, rfl⟩
  have hlength : substitution.span.length = Text.byteLength middle := by
    rw [h]
    exact Nat.add_sub_cancel_left _ _
  have hforward : substitution.span.start ≤ substitution.span.stop := by
    rw [h]
    exact Nat.le_add_right _ _
  rw [applyTo?, guard, if_pos hforward, hlength, h]
  simp [hfront, hmiddle]

/-- A substitution is made exactly where its range lies between characters, and leaves the
text around it alone. -/
theorem Substitution.applyTo?_eq_some_iff {substitution : Substitution} {cs fixed : List Char} :
    substitution.applyTo? cs = some fixed ↔
      ∃ front middle back, cs = front ++ (middle ++ back) ∧
        substitution.span =
          ⟨Text.byteLength front, Text.byteLength front + Text.byteLength middle⟩ ∧
        fixed = front ++ substitution.snippet.toList ++ back := by
  constructor
  · intro h
    rw [applyTo?, guard] at h
    by_cases hforward : substitution.span.start ≤ substitution.span.stop
    · rw [if_pos hforward, Option.pure_def, Option.bind_eq_bind, Option.bind_some] at h
      obtain ⟨⟨front, rest⟩, hfront, h⟩ := Option.bind_eq_some_iff.mp h
      obtain ⟨⟨middle, back⟩, hmiddle, h⟩ := Option.bind_eq_some_iff.mp h
      obtain rfl := Option.some.inj h
      obtain ⟨rfl, hstart⟩ := Text.cut?_eq_some_iff.mp hfront
      obtain ⟨rfl, hlength⟩ := Text.cut?_eq_some_iff.mp hmiddle
      refine ⟨front, middle, back, rfl, ?_, rfl⟩
      rw [hstart, hlength, Span.length, Nat.add_sub_of_le hforward]
    · rw [if_neg hforward] at h
      cases h
  · rintro ⟨front, middle, back, rfl, hspan, rfl⟩
    exact applyTo?_of_append hspan

theorem Substitution.byteLength_of_applyTo? {substitution : Substitution} {cs fixed : List Char}
    (h : substitution.applyTo? cs = some fixed) :
    Text.byteLength fixed + substitution.span.length =
      Text.byteLength cs + Text.byteLength substitution.snippet.toList := by
  obtain ⟨front, middle, back, rfl, hspan, rfl⟩ := applyTo?_eq_some_iff.mp h
  simp only [hspan, Span.length, Text.byteLength_append]
  omega

/-- The segments of a text and of the same text with a specifier replaced. -/
structure Replaces (format fixed : String) (specifier replacement : Specifier) (span : Span)
    (before after moved : List (Located Segment)) : Prop where
  parse_format : parse format = .ok (before ++ ⟨.specifier specifier, span⟩ :: after)
  parse_fixed : parse fixed = .ok (before ++
    ⟨.specifier replacement, span.start,
      span.start + Text.byteLength replacement.chars⟩ :: moved)
  moved_eq : moved.map (·.shift span.length) =
    after.map (·.shift (Text.byteLength replacement.chars))

/-- Any specifier of a format text can be replaced. -/
theorem exists_replaces {format : String} {segments : List (Located Segment)} {place : Nat}
    {specifier replacement : Specifier} {span : Span} (hparse : parse format = .ok segments)
    (hplace : (Segment.specifiers segments)[place]? = some ⟨specifier, span⟩)
    (hwritable : replacement.Writable) :
    ∃ fixed before after moved,
      Substitution.applyTo? ⟨span, replacement.text⟩ format.toList = some fixed ∧
      Replaces format (String.ofList fixed) specifier replacement span before after moved ∧
      (Segment.specifiers before).length = place := by
  obtain ⟨chunks, htext, hmax, rfl⟩ := parse_eq_ok_iff.mp hparse
  obtain ⟨front, chunk, back, rfl, hlength, hchunk, hspan⟩ :=
    Chunk.exists_of_specifiers_located hplace
  simp only [Nat.zero_add] at hspan
  subst hspan
  let other := replacement.chunk hwritable
  have hother : other.chars = replacement.chars := replacement.chars_chunk hwritable
  have hsegment : other.segment = .specifier replacement := replacement.segment_chunk hwritable
  have hmax' : Chunk.Maximal (front ++ other :: back) :=
    hmax.replace (Chunk.not_isPlain_of_segment hsegment)
  let start := Text.byteLength (Chunk.text front)
  refine ⟨Chunk.text front ++ replacement.chars ++ Chunk.text back, Chunk.located 0 front,
    Chunk.located (start + Text.byteLength chunk.chars) back,
    Chunk.located (start + Text.byteLength replacement.chars) back, ?_, ⟨?_, ?_, ?_⟩, hlength⟩
  · rw [← htext, Chunk.text_append, Chunk.text_cons,
      Substitution.applyTo?_of_append rfl]
    simp [Specifier.text]
  · rw [hparse, Chunk.located_append, Chunk.located, hchunk, Nat.zero_add]
  · refine parse_eq_ok_iff.mpr ⟨front ++ other :: back, by simp [hother], hmax', ?_⟩
    rw [Chunk.located_append, Chunk.located, hsegment, hother, Nat.zero_add]
  · rw [Chunk.map_shift_located, Chunk.map_shift_located]
    have hlengths : start + Text.byteLength replacement.chars + Text.byteLength chunk.chars =
        start + Text.byteLength chunk.chars + Text.byteLength replacement.chars := by
      omega
    simp only [Span.length, Nat.add_sub_cancel_left]
    rw [hlengths]

end FormatCheck
