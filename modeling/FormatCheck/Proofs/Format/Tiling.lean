import FormatCheck.Format.Scanner
import FormatCheck.Proofs.Format.Progress

/-! # Segments tile the text

The ranges of the segments lie side by side from the start of a text to its end or to
its first fault. Asking a scanner for one segment after the other gives these segments
and the fault, and then nothing more. -/

namespace FormatCheck

/-! ## Ranges -/

/-- The range of a text that holds exactly `part`. It starts and stops between
characters. -/
def Span.Holds (span : Span) (text part : List Char) : Prop :=
  ∃ front back, text = front ++ (part ++ back) ∧
    span = ⟨Text.byteLength front, Text.byteLength front + Text.byteLength part⟩

/-- What a segment says about the part of the text that it was read from. -/
def Segment.ReadFrom : Segment → List Char → Prop
  | literal text, part => text.toList = part ∧ '%' ∉ part
  | specifier _, part => part.head? = some '%'

def Segment.IsLiteral : Segment → Prop
  | literal _ => True
  | specifier _ => False

/-- Segments lie side by side from the start of a text to an offset. -/
structure Tiling (text : List Char) (segments : List (Located Segment)) (stop : Nat) : Prop where
  readFrom : ∀ segment ∈ segments, ∃ part, segment.span.Holds text part ∧
    segment.value.ReadFrom part
  nonempty : ∀ segment ∈ segments, segment.span.start < segment.span.stop
  first : ∀ segment ∈ segments.head?, segment.span.start = 0
  contiguous : segments.IsChain fun segment next => segment.span.stop = next.span.start
  separated : segments.IsChain fun segment next =>
    ¬(segment.value.IsLiteral ∧ next.value.IsLiteral)
  last : (segments.getLast?.map fun segment => segment.span.stop).getD 0 = stop

namespace Chunk

theorem readFrom_segment (chunk : Chunk) : chunk.segment.ReadFrom chunk.chars := by
  cases chunk with
  | plain text _ hpercent => exact ⟨String.toList_ofList, hpercent⟩
  | specifier spelling _ => rfl

theorem isLiteral_segment (chunk : Chunk) : chunk.segment.IsLiteral ↔ chunk.IsPlain := by
  cases chunk <;> exact Iff.rfl

/-- Each chunk stands in its range. -/
theorem holds_located {chunks : List Chunk} {segment : Located Segment} (front back : List Char)
    (h : segment ∈ located (Text.byteLength front) chunks) :
    ∃ chunk : Chunk, segment.value = chunk.segment ∧
      segment.span.Holds (front ++ (text chunks ++ back)) chunk.chars := by
  induction chunks generalizing front with
  | nil => cases h
  | cons chunk chunks ih =>
      rcases List.mem_cons.mp h with rfl | h
      · exact ⟨chunk, rfl, front, text chunks ++ back, by simp, rfl⟩
      · rw [← Text.byteLength_append] at h
        obtain ⟨found, hvalue, hholds⟩ := ih (front ++ chunk.chars) h
        refine ⟨found, hvalue, ?_⟩
        simpa using hholds

theorem contiguous_located (offset : Nat) (chunks : List Chunk) :
    (located offset chunks).IsChain fun segment next => segment.span.stop = next.span.start := by
  induction chunks generalizing offset with
  | nil => exact .nil
  | cons chunk chunks ih =>
      cases chunks with
      | nil => exact .singleton _
      | cons next chunks => exact List.isChain_cons_cons.mpr ⟨rfl, ih _⟩

theorem separated_located {chunks : List Chunk} (h : Maximal chunks) (offset : Nat) :
    (located offset chunks).IsChain fun segment next =>
      ¬(segment.value.IsLiteral ∧ next.value.IsLiteral) := by
  have hvalues : ((located offset chunks).map Located.value).IsChain fun segment next =>
      ¬(segment.IsLiteral ∧ next.IsLiteral) := by
    rw [map_value_located, List.isChain_map]
    simp only [isLiteral_segment]
    exact h
  rwa [List.isChain_map] at hvalues

theorem last_located (offset : Nat) (chunks : List Chunk) :
    ((located offset chunks).getLast?.map fun segment => segment.span.stop).getD offset =
      offset + Text.byteLength (text chunks) := by
  induction chunks generalizing offset with
  | nil => rfl
  | cons chunk chunks ih =>
      rw [text_cons, Text.byteLength_append, ← Nat.add_assoc, ← ih, located, List.getLast?_cons]
      cases (located (offset + Text.byteLength chunk.chars) chunks).getLast? <;> rfl

theorem length_le_text (chunks : List Chunk) : chunks.length ≤ (text chunks).length := by
  induction chunks with
  | nil => simp
  | cons chunk chunks ih =>
      have hpos := List.length_pos_of_ne_nil chunk.chars_ne_nil
      simp only [text_cons, List.length_append, List.length_cons]
      omega

/-- Chunks at the front of a text tile it as far as they reach. -/
theorem tiling_located {chunks : List Chunk} (h : Maximal chunks) (back : List Char) :
    Tiling (text chunks ++ back) (located 0 chunks) (Text.byteLength (text chunks)) where
  readFrom := by
    intro segment hmem
    obtain ⟨chunk, hvalue, hholds⟩ := holds_located [] back hmem
    exact ⟨chunk.chars, hholds, hvalue ▸ chunk.readFrom_segment⟩
  nonempty := by
    intro segment hmem
    obtain ⟨chunk, -, _, _, -, hspan⟩ := holds_located [] back hmem
    have hpos := Text.byteLength_pos chunk.chars_ne_nil
    rw [hspan]
    exact Nat.lt_add_of_pos_right hpos
  first := by
    cases chunks with
    | nil => simp [located]
    | cons chunk chunks => simp [located]
  contiguous := contiguous_located 0 chunks
  separated := separated_located h 0
  last := by rw [last_located, Nat.zero_add]

end Chunk

/-! ## Asking for segments -/

/-- All that is read, in order: the segments, and the fault if there is one. -/
def Reading.items (reading : Reading) : List (Except (Located Fault) (Located Segment)) :=
  reading.segments.map .ok ++ reading.fault?.toList.map .error

namespace Scanner

theorem after_of_failed {scanner : Scanner} (h : scanner.failed = true) (requests : Nat) :
    scanner.after requests = scanner := by
  induction requests with
  | zero => rfl
  | succ requests ih => rw [after, next, if_pos h, ih]

/-- Each request gives the item whose turn it is, and none after the last. -/
theorem next_after (input : Input) (requests : Nat) :
    ((⟨input, false⟩ : Scanner).after requests).next.1 = input.read.items[requests]? := by
  induction requests generalizing input with
  | zero =>
      cases hstep : input.step <;> simp [after, next, input.read_eq, hstep, Reading.items]
  | succ requests ih =>
      cases hstep : input.step with
      | done =>
          have hnone : ∀ place : Nat, input.read.items[place]? = none := by
            simp [input.read_eq, hstep, Reading.items]
          have hnext : next ⟨input, false⟩ = (none, ⟨input, false⟩) := by simp [next, hstep]
          rw [after, hnext, ih, hnone, hnone]
      | segment segment rest =>
          have hnext : next ⟨input, false⟩ = (some (.ok segment), ⟨rest, false⟩) := by
            simp [next, hstep]
          rw [after, hnext, ih, input.read_eq, hstep]
          rfl
      | failed fault =>
          have hnext : next ⟨input, false⟩ = (some (.error fault), ⟨input, true⟩) := by
            simp [next, hstep]
          rw [after, hnext, after_of_failed rfl, input.read_eq, hstep]
          simp [next, Reading.items]

end Scanner

/-! ## The whole text -/

/-- A fault reaches over a part of the text that starts with its `%`. -/
theorem Input.exists_part_of_failed {input : Input} {fault : Located Fault}
    (h : input.step = .failed fault) :
    ∃ (part : List Char) (stop : Input), input.Reads part stop ∧ part.head? = some '%' ∧
      fault.span = ⟨input.offset, stop.offset⟩ := by
  obtain ⟨rest, stop, hrest, hread, hspan⟩ := exists_of_failed h
  obtain ⟨read, hreads⟩ := Reader.advances_specifier ⟨input.offset + '%'.utf8Size, rest⟩
  rw [hread] at hreads
  exact ⟨'%' :: read, stop, (reads_cons hrest).append hreads, rfl, hspan⟩

namespace Reading

/-- Where reading stops: at the fault, or at the end of the text. -/
def stop (reading : Reading) (text : List Char) : Nat :=
  match reading.fault? with
  | some fault => fault.span.start
  | none => Text.byteLength text

theorem tiling_ofText (format : String) :
    Tiling format.toList (ofText format).segments ((ofText format).stop format.toList) := by
  obtain ⟨chunks, after, fault?, hreached, -, hstopped⟩ := (Reached.start format).exists_stopped
  have hstop : (ofText format).stop format.toList = Text.byteLength (Chunk.text chunks) := by
    rw [stop, hreached.reading_eq hstopped]
    cases hstopped with
    | finished hrest => simp only [hreached.toList_eq, hrest, List.nil_append, List.append_nil]
    | failed hstep =>
        obtain ⟨_, _, -, -, hspan⟩ := Input.exists_of_failed hstep
        simp only [hspan]
        exact hreached.offset_eq
  rw [hstop, hreached.reading_eq hstopped, hreached.toList_eq]
  exact Chunk.tiling_located hreached.maximal after.rest

/-- A fault has a range of its own, from a `%` of the text to another place between
characters. -/
theorem holds_of_fault {format : String} {fault : Located Fault}
    (h : (ofText format).fault? = some fault) :
    fault.span.start < fault.span.stop ∧
      ∃ part, fault.span.Holds format.toList part ∧ part.head? = some '%' := by
  obtain ⟨chunks, after, fault?, hreached, -, hstopped⟩ := (Reached.start format).exists_stopped
  rw [hreached.reading_eq hstopped] at h
  obtain rfl : fault? = some fault := h
  cases hstopped with
  | failed hstep =>
      obtain ⟨part, stop, ⟨hpart, hstop⟩, hhead, hspan⟩ := Input.exists_part_of_failed hstep
      have hpos : 0 < Text.byteLength part := by
        apply Text.byteLength_pos
        rintro rfl
        cases hhead
      rw [hspan, hstop, hreached.offset_eq]
      refine ⟨Nat.lt_add_of_pos_right hpos, part, ⟨Chunk.text chunks, stop.rest, ?_, rfl⟩, hhead⟩
      rw [← hpart]
      exact hreached.toList_eq

/-- Each item takes at least one character. -/
theorem length_items_le (format : String) : (ofText format).items.length ≤ format.length := by
  obtain ⟨chunks, after, fault?, hreached, -, hstopped⟩ := (Reached.start format).exists_stopped
  have hchunks : (Chunk.located 0 chunks).length = chunks.length := by
    rw [← List.length_map Located.value, Chunk.map_value_located, List.length_map]
  have hle := Chunk.length_le_text chunks
  have hlength : format.length = (Chunk.text chunks).length + after.rest.length := by
    rw [← String.length_toList, hreached.toList_eq, List.length_append]
    rfl
  have hfault : fault?.toList.length ≤ after.rest.length := by
    cases hstopped with
    | finished hrest => simp
    | failed hstep =>
        obtain ⟨rest, _, hrest, -, -⟩ := Input.exists_of_failed hstep
        simp [hrest]
  rw [hreached.reading_eq hstopped, items, List.length_append, List.length_map, List.length_map]
  simp only [List.nil_append] at hchunks ⊢
  omega

end Reading

/-- The segments tile the text up to its end, or to the `%` of a fault whose range lies
in the text. A scanner gives them one by one, then the fault, and then nothing; there
are no more of them than characters. -/
theorem segments_tile (format : String) :
    Tiling format.toList (Reading.ofText format).segments
      ((Reading.ofText format).stop format.toList) ∧
    (∀ fault ∈ (Reading.ofText format).fault?, fault.span.start < fault.span.stop ∧
      ∃ part, fault.span.Holds format.toList part ∧ part.head? = some '%') ∧
    (∀ requests, ((Scanner.ofText format).after requests).next.1 =
      (Reading.ofText format).items[requests]?) ∧
    (Reading.ofText format).items.length ≤ format.length :=
  ⟨Reading.tiling_ofText format, fun _ h => Reading.holds_of_fault h,
    Scanner.next_after (Input.ofText format), Reading.length_items_le format⟩

/-- The characters before the fault take up to three bytes, and the fourth request finds
nothing more. -/
theorem segments_tile_before_fault :
    (∃ part, Span.Holds ⟨7, 10⟩ "é%d✓%-q".toList part ∧ part.head? = some '%') ∧
    ((Scanner.ofText "é%d✓%-q").after 4).next.1 = none := by
  have hfault : (Reading.ofText "é%d✓%-q").fault? =
      some ⟨.unknownConversion (some 'q'), 7, 10⟩ := by decide +kernel
  obtain ⟨-, hholds, hnext, -⟩ := segments_tile "é%d✓%-q"
  exact ⟨(hholds _ hfault).2, (hnext 4).trans (by decide +kernel)⟩

end FormatCheck
