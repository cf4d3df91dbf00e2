import FormatCheck.Proofs.Text.Visible
import FormatCheck.Report.Snippet
import FormatCheck.Text.Bytes

/-! # What the marks stand under

A format text is shown on one line, and marks below it point at a range of its bytes. The
marks stand under what is shown of that range, wherever escapes and characters of several
bytes move the columns; no range makes them stand beyond the end of the line. -/

namespace FormatCheck

namespace Text

/-! ## Characters at their offsets -/

theorem withOffsets_append (offset : Nat) (as bs : List Char) :
    withOffsets offset (as ++ bs) =
      withOffsets offset as ++ withOffsets (offset + byteLength as) bs := by
  induction as generalizing offset with
  | nil => simp [withOffsets]
  | cons c as ih => simp [withOffsets, ih, Nat.add_assoc]

theorem map_snd_withOffsets (offset : Nat) (cs : List Char) :
    (withOffsets offset cs).map Prod.snd = cs := by
  induction cs generalizing offset with
  | nil => rfl
  | cons c cs ih => simp [withOffsets, ih]

theorem offset_of_mem_withOffsets {offset place : Nat} {c : Char} {cs : List Char}
    (h : (place, c) ∈ withOffsets offset cs) :
    offset ≤ place ∧ place < offset + byteLength cs := by
  induction cs generalizing offset with
  | nil => simp [withOffsets] at h
  | cons d cs ih =>
      have hd := d.utf8Size_pos
      simp only [withOffsets, List.mem_cons, Prod.mk.injEq] at h
      rw [byteLength_cons]
      rcases h with ⟨rfl, -⟩ | h
      · omega
      · have := ih h
        omega

/-! ## Parts of a text by their offsets -/

/-- The characters from an offset on that start at places with a property. -/
def charsWhere (p : Nat → Bool) (offset : Nat) (cs : List Char) : List Char :=
  ((withOffsets offset cs).filter fun (place, _) => p place).map Prod.snd

variable {p q : Nat → Bool} {offset : Nat} {cs : List Char}

theorem charsWhere_append (p : Nat → Bool) (offset : Nat) (as bs : List Char) :
    charsWhere p offset (as ++ bs) =
      charsWhere p offset as ++ charsWhere p (offset + byteLength as) bs := by
  simp [charsWhere, withOffsets_append]

theorem charsWhere_of_all
    (h : ∀ place, offset ≤ place → place < offset + byteLength cs → p place = true) :
    charsWhere p offset cs = cs := by
  have hall : ∀ item ∈ withOffsets offset cs, p item.1 = true := by
    intro item hitem
    obtain ⟨hfrom, hto⟩ := offset_of_mem_withOffsets hitem
    exact h item.1 hfrom hto
  rw [charsWhere, List.filter_eq_self.mpr hall, map_snd_withOffsets]

theorem charsWhere_of_none
    (h : ∀ place, offset ≤ place → place < offset + byteLength cs → p place = false) :
    charsWhere p offset cs = [] := by
  have hnone : ∀ item ∈ withOffsets offset cs, ¬ p item.1 = true := by
    intro item hitem
    obtain ⟨hfrom, hto⟩ := offset_of_mem_withOffsets hitem
    simp [h item.1 hfrom hto]
  rw [charsWhere, List.filter_eq_nil_iff.mpr hnone, List.map_nil]

/-- Two parts without a common place fit into what is shown of the whole text. -/
theorem length_shown_charsWhere_add_le (hapart : ∀ place, p place = true → q place = false)
    (offset : Nat) (cs : List Char) :
    (shown (charsWhere p offset cs)).length + (shown (charsWhere q offset cs)).length ≤
      (shown cs).length := by
  induction cs generalizing offset with
  | nil => simp [charsWhere, withOffsets]
  | cons c cs ih =>
      have hrest := ih (offset + c.utf8Size)
      have hsplit : c :: cs = [c] ++ cs := rfl
      have hfirst : (shown (charsWhere p offset [c])).length +
          (shown (charsWhere q offset [c])).length ≤ (shown [c]).length := by
        cases hp : p offset with
        | true => simp [charsWhere, withOffsets, hp, hapart offset hp]
        | false =>
          cases hq : q offset with
          | true => simp [charsWhere, withOffsets, hp, hq]
          | false => simp [charsWhere, withOffsets, hp, hq]
      rw [hsplit, charsWhere_append, charsWhere_append]
      simp only [shown_append, List.length_append, byteLength_cons, byteLength_nil, Nat.add_zero]
      omega

end Text

namespace Snippet

theorem shownWhere_eq (cs : List Char) (p : Nat → Bool) :
    Text.shownWhere cs p = Text.shown (Text.charsWhere p 0 cs) := rfl

theorem column_add_width_le (cs : List Char) (span : Span) :
    (ofSpan cs span).column + (ofSpan cs span).width ≤ (ofSpan cs span).line.length := by
  simp only [ofSpan, shownWhere_eq]
  apply Text.length_shown_charsWhere_add_le
  intro place hplace
  simp only [decide_eq_true_eq] at hplace
  simp only [Span.contains, Bool.and_eq_false_iff, decide_eq_false_iff_not]
  omega

/-- The columns before a range, and those below it, are as many as the characters that show
the text before the range, and the range. -/
theorem ofSpan_append (front middle back : List Char) :
    ofSpan (front ++ (middle ++ back))
        ⟨Text.byteLength front, Text.byteLength front + Text.byteLength middle⟩ =
      ⟨Text.shown front ++ (Text.shown middle ++ Text.shown back), (Text.shown front).length,
        (Text.shown middle).length⟩ := by
  have hcolumn : Text.charsWhere (· < Text.byteLength front) 0 (front ++ (middle ++ back)) =
      front := by
    rw [Text.charsWhere_append, Text.charsWhere_of_all, Text.charsWhere_of_none,
      List.append_nil]
    · grind
    · grind
  have hwidth : Text.charsWhere
      (Span.contains ⟨Text.byteLength front, Text.byteLength front + Text.byteLength middle⟩) 0
        (front ++ (middle ++ back)) = middle := by
    rw [Text.charsWhere_append, Text.charsWhere_append, Text.charsWhere_of_none,
      Text.charsWhere_of_all, Text.charsWhere_of_none, List.append_nil, List.nil_append]
    · grind [Span.contains]
    · grind [Span.contains]
    · grind [Span.contains]
  simp only [ofSpan, shownWhere_eq, hcolumn, hwidth, Text.shown_append]

end Snippet

/-- The line shows the whole text and nothing that cannot be seen, and the marks stay below it.
When the range lies between characters, they start behind what is shown of the text before the
range and are as wide as what is shown of the range. -/
theorem marks_stand_under_span (source : String) (span : Span) :
    let snippet := Snippet.ofSpan source.toList span
    Text.Visible snippet.line ∧ Text.Shows source.toList snippet.line ∧
      snippet.column + snippet.width ≤ snippet.line.length ∧
      ∀ front middle back, source.toList = front ++ (middle ++ back) →
        span = ⟨Text.byteLength front, Text.byteLength front + Text.byteLength middle⟩ →
        Text.Shows front (snippet.line.take snippet.column) ∧
          Text.Shows middle ((snippet.line.drop snippet.column).take snippet.width) := by
  refine ⟨Text.visible_shown _, Text.shows_iff.mpr rfl, Snippet.column_add_width_le _ _, ?_⟩
  intro front middle back hsource hspan
  rw [hsource, hspan, Snippet.ofSpan_append]
  constructor
  · rw [List.take_left, Text.shows_iff]
  · rw [List.drop_left, List.take_left, Text.shows_iff]

/-- A tab and a character of two bytes stand before the range, and an escape within it. -/
theorem marks_stand_under_escape :
    let snippet := Snippet.ofSpan "\té%\x1bd".toList ⟨3, 6⟩
    snippet = ⟨"\\té%\\u\x7b1b\x7dd".toList, 3, 8⟩ ∧
      Text.Shows "\té".toList (snippet.line.take snippet.column) ∧
      Text.Shows "%\x1bd".toList ((snippet.line.drop snippet.column).take snippet.width) :=
  ⟨by decide +kernel,
    (marks_stand_under_span "\té%\x1bd" ⟨3, 6⟩).2.2.2 "\té".toList "%\x1bd".toList []
      (by decide +kernel) (by decide +kernel)⟩

end FormatCheck
