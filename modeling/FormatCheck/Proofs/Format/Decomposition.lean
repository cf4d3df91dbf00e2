import FormatCheck.Format.Segment
import FormatCheck.Proofs.Format.Specifiers
import Mathlib.Data.List.Chain

/-! # Format texts as runs of chunks

A format text is well formed when it is put together from plain text and written
specifiers. It then falls into such chunks in one way that leaves no two runs of plain
text side by side, and the segments that are read are these chunks. -/

namespace FormatCheck

/-- Plain text, or a written specifier that breaks no rule. -/
inductive Chunk where
  | plain (text : List Char) (nonempty : text ≠ []) (noPercent : '%' ∉ text)
  | specifier (spelling : Spelling) (valid : spelling.specifier.fault? = none)

namespace Chunk

def chars : Chunk → List Char
  | plain text _ _ => text
  | specifier spelling _ => '%' :: spelling.chars

def segment : Chunk → Segment
  | plain text _ _ => .literal (String.ofList text)
  | specifier spelling _ => .specifier spelling.specifier

def IsPlain : Chunk → Prop
  | plain _ _ _ => True
  | specifier _ _ => False

/-- The text that chunks are put together to. -/
def text (chunks : List Chunk) : List Char :=
  chunks.flatMap chars

/-- No two runs of plain text stand side by side. -/
def Maximal (chunks : List Chunk) : Prop :=
  chunks.IsChain fun chunk next => ¬(chunk.IsPlain ∧ next.IsPlain)

/-- The segments of chunks that are written one after the other from an offset on. -/
def located (offset : Nat) : List Chunk → List (Located Segment)
  | [] => []
  | chunk :: chunks =>
      let stop := offset + Text.byteLength chunk.chars
      ⟨chunk.segment, offset, stop⟩ :: located stop chunks

@[simp] theorem text_nil : text [] = [] := rfl

@[simp] theorem text_cons (chunk : Chunk) (chunks : List Chunk) :
    text (chunk :: chunks) = chunk.chars ++ text chunks := rfl

@[simp] theorem text_append (chunks others : List Chunk) :
    text (chunks ++ others) = text chunks ++ text others :=
  List.flatMap_append

theorem chars_ne_nil (chunk : Chunk) : chunk.chars ≠ [] := by
  cases chunk with
  | plain text hne _ => exact hne
  | specifier spelling _ => simp [chars]

end Chunk

/-! ## One step -/

namespace Input

/-- Plain text is read up to the next `%`. -/
def EndsPlain (input : Input) : Prop :=
  input.Stops (· ≠ '%')

theorem endsPlain_of_nil {input : Input} (h : input.rest = []) : input.EndsPlain := by
  simp [EndsPlain, Stops, h]

theorem step_of_plain {c : Char} {rest run : List Char} {input after : Input}
    (h : input.rest = c :: rest) (hc : c ≠ '%')
    (htake : input.takeWhile (· ≠ '%') = (run, after)) :
    input.step = .segment ⟨.literal (String.ofList run), input.offset, after.offset⟩ after := by
  rw [step]
  split
  · rename_i hrest
    rw [h] at hrest
    cases hrest
  · rename_i hrest
    rw [h] at hrest
    exact absurd (List.cons.inj hrest).1 hc
  · rw [htake]

theorem step_of_percent {rest : List Char} {input : Input} (h : input.rest = '%' :: rest) :
    input.step =
      match Reader.specifier ⟨input.offset + '%'.utf8Size, rest⟩ with
      | .ok specifier after => .segment ⟨.specifier specifier, input.offset, after.offset⟩ after
      | .error fault after => .failed ⟨fault, input.offset, after.offset⟩ := by
  rw [step, h]
  rfl

theorem step_of_chunk {chunk : Chunk} {input after : Input} (h : input.Reads chunk.chars after)
    (hend : chunk.IsPlain → after.EndsPlain) :
    input.step = .segment ⟨chunk.segment, input.offset, after.offset⟩ after := by
  cases chunk with
  | plain text hne hpercent =>
      have htake : input.takeWhile (· ≠ '%') = (text, after) := by
        refine takeWhile_eq_iff.mpr ⟨h, ?_, hend trivial⟩
        intro c hc
        have hne : c ≠ '%' := fun hc' => hpercent (hc' ▸ hc)
        simpa using hne
      obtain ⟨c, rest, rfl⟩ := List.exists_cons_of_ne_nil hne
      have hc : c ≠ '%' := fun hc => hpercent (by simp [hc])
      exact step_of_plain h.1 hc htake
  | specifier spelling hvalid =>
      obtain ⟨mid, hpercent, hspelling⟩ := Reads.split (s := ['%']) h
      have hread := Reader.specifier_eq_ok_iff.mpr ⟨spelling, hspelling, rfl, hvalid⟩
      rw [hpercent.after_eq (reads_cons hpercent.1)] at hread
      rw [step_of_percent hpercent.1, hread]
      rfl

/-- Plain text ends where the next chunk is not plain. -/
theorem endsPlain_iff {chunk : Chunk} {input after : Input} (h : input.Reads chunk.chars after) :
    input.EndsPlain ↔ ¬chunk.IsPlain := by
  cases chunk with
  | plain text hne hpercent =>
      obtain ⟨c, rest, rfl⟩ := List.exists_cons_of_ne_nil hne
      have hc : c ≠ '%' := fun hc => hpercent (by simp [hc])
      have hnext : input.rest.head? = some c := by rw [h.1]; rfl
      constructor
      · intro hend
        simpa [hc] using hend c hnext
      · intro hplain
        exact absurd trivial hplain
  | specifier spelling hvalid =>
      refine ⟨fun _ => id, fun _ => h.stops ?_ (absurd · (Chunk.chars_ne_nil _))⟩
      intro c hc
      obtain rfl : '%' = c := by simpa [Chunk.chars] using hc
      decide

/-- In maximal chunks a run of plain text ends where the next chunk starts. -/
theorem endsPlain_of_maximal {chunk : Chunk} {chunks : List Chunk} {input after : Input}
    (hmax : Chunk.Maximal (chunk :: chunks)) (h : input.Reads (Chunk.text chunks) after)
    (hlast : ∀ last ∈ (chunk :: chunks).getLast?, last.IsPlain → after.EndsPlain) :
    chunk.IsPlain → input.EndsPlain := by
  intro hplain
  cases chunks with
  | nil =>
      rw [← h.after_eq (.refl input)]
      exact hlast chunk rfl hplain
  | cons next chunks =>
      obtain ⟨mid, hnext, -⟩ := h.split
      apply (endsPlain_iff hnext).mpr
      intro hplain'
      exact (List.isChain_cons_cons.mp hmax).1 ⟨hplain, hplain'⟩

/-- Every step reads a chunk. -/
theorem exists_chunk_of_step {segment : Located Segment} {input after : Input}
    (h : input.step = .segment segment after) :
    ∃ chunk : Chunk, input.Reads chunk.chars after ∧
      segment = ⟨chunk.segment, input.offset, after.offset⟩ ∧
      (chunk.IsPlain → after.EndsPlain) := by
  cases hrest : input.rest with
  | nil => simp [step, hrest] at h
  | cons c rest =>
      by_cases hc : c = '%'
      · subst hc
        rw [step_of_percent hrest] at h
        split at h
        · rename_i specifier mid hread
          cases h
          obtain ⟨spelling, hreads, rfl, hvalid⟩ := Reader.specifier_eq_ok_iff.mp hread
          exact ⟨.specifier spelling hvalid, (reads_cons hrest).append hreads, rfl, False.elim⟩
        · cases h
      · cases htake : input.takeWhile (· ≠ '%') with
        | mk run mid =>
            rw [step_of_plain hrest hc htake] at h
            cases h
            obtain ⟨hreads, hrun, hstops⟩ := takeWhile_eq_iff.mp htake
            have hne : run ≠ [] := by
              intro hnil
              subst hnil
              rw [hreads.after_eq (.refl input)] at hstops
              simpa [hc] using hstops c (by simp [hrest])
            have hpercent : '%' ∉ run := by
              intro hmem
              simpa using hrun '%' hmem
            exact ⟨.plain run hne hpercent, hreads, rfl, fun _ => hstops⟩

/-- Every fault is one of a specifier, and reaches from its `%` to where reading stopped. -/
theorem exists_of_failed {fault : Located Fault} {input : Input}
    (h : input.step = .failed fault) :
    ∃ (rest : List Char) (stop : Input), input.rest = '%' :: rest ∧
      Reader.specifier ⟨input.offset + '%'.utf8Size, rest⟩ = .error fault.value stop ∧
      fault.span = ⟨input.offset, stop.offset⟩ := by
  cases hrest : input.rest with
  | nil => simp [step, hrest] at h
  | cons c rest =>
      by_cases hc : c = '%'
      · subst hc
        rw [step_of_percent hrest] at h
        split at h
        · cases h
        · rename_i found stop hread
          cases h
          exact ⟨rest, stop, rfl, hread, rfl⟩
      · rw [step_of_plain hrest hc rfl] at h
        cases h

/-! ## Whole texts -/

theorem rest_of_done {input : Input} (h : input.step = .done) : input.rest = [] := by
  cases hrest : input.rest with
  | nil => rfl
  | cons c rest =>
      by_cases hc : c = '%'
      · subst hc
        rw [step_of_percent hrest] at h
        split at h <;> cases h
      · rw [step_of_plain hrest hc rfl] at h
        cases h

theorem read_eq (input : Input) :
    input.read =
      match input.step with
      | .done => ⟨[], none⟩
      | .failed fault => ⟨[], some fault⟩
      | .segment segment after => ⟨segment :: after.read.segments, after.read.fault?⟩ := by
  rw [read]
  split <;> rename_i hstep <;> rw [hstep]

theorem read_of_nil {input : Input} (h : input.rest = []) : input.read = ⟨[], none⟩ := by
  have hstep : input.step = .done := by simp [step, h]
  rw [read_eq, hstep]

/-- Chunks at the front of a text are read as they are, and the rest on its own. -/
theorem read_of_chunks {chunks : List Chunk} {input after : Input}
    (h : input.Reads (Chunk.text chunks) after) (hmax : Chunk.Maximal chunks)
    (hlast : ∀ chunk ∈ chunks.getLast?, chunk.IsPlain → after.EndsPlain) :
    input.read = ⟨Chunk.located input.offset chunks ++ after.read.segments, after.read.fault?⟩ := by
  induction chunks generalizing input with
  | nil =>
      rw [h.after_eq (.refl input)]
      rfl
  | cons chunk chunks ih =>
      obtain ⟨mid, hchunk, hchunks⟩ := h.split
      have hend := endsPlain_of_maximal hmax hchunks hlast
      have hlast' : ∀ chunk ∈ chunks.getLast?, chunk.IsPlain → after.EndsPlain := by
        intro last hmem
        apply hlast last
        cases chunks with
        | nil => simp at hmem
        | cons next chunks => simpa [List.getLast?_cons_cons] using hmem
      rw [read_eq, step_of_chunk hchunk hend]
      simp only [ih hchunks hmax.of_cons hlast', hchunk.2]
      rfl

/-- Every text starts with chunks, after which it ends or has a fault. -/
theorem exists_chunks (input : Input) :
    ∃ (chunks : List Chunk) (after : Input), input.Reads (Chunk.text chunks) after ∧
      Chunk.Maximal chunks ∧ (∀ chunk ∈ chunks.getLast?, chunk.IsPlain → after.EndsPlain) ∧
      (after.rest = [] ∨ ∃ fault, after.step = .failed fault) := by
  fun_induction read input with
  | case1 input hstep =>
      exact ⟨[], input, .refl input, .nil, by simp, .inl (rest_of_done hstep)⟩
  | case2 input fault hstep =>
      exact ⟨[], input, .refl input, .nil, by simp, .inr ⟨fault, hstep⟩⟩
  | case3 input segment mid hstep _ _ _ ih =>
      obtain ⟨chunk, hchunk, -, hend⟩ := exists_chunk_of_step hstep
      obtain ⟨chunks, after, hchunks, hmax, hlast, hafter⟩ := ih
      refine ⟨chunk :: chunks, after, hchunk.append hchunks, ?_, ?_, hafter⟩
      · cases chunks with
        | nil => exact .singleton chunk
        | cons next chunks =>
            refine List.isChain_cons_cons.mpr ⟨?_, hmax⟩
            intro hplain
            obtain ⟨_, hnext, -⟩ := hchunks.split
            exact (endsPlain_iff hnext).mp (hend hplain.1) hplain.2
      · intro last hmem
        cases chunks with
        | nil =>
            obtain rfl : chunk = last := by simpa using hmem
            rw [hchunks.after_eq (.refl mid)]
            exact hend
        | cons next chunks => exact hlast last (by simpa [List.getLast?_cons_cons] using hmem)

end Input

namespace Chunk

theorem chars_injective {chunk other : Chunk} (h : chunk.chars = other.chars) : chunk = other := by
  cases chunk with
  | plain text hne hpercent =>
      cases other with
      | plain other _ _ =>
          obtain rfl : text = other := h
          rfl
      | specifier spelling _ =>
          obtain rfl : text = '%' :: spelling.chars := h
          simp at hpercent
  | specifier spelling hvalid =>
      cases other with
      | plain text hne hpercent =>
          obtain rfl : '%' :: spelling.chars = text := h
          simp at hpercent
      | specifier other _ =>
          have hchars : spelling.chars = other.chars := (List.cons.inj h).2
          let input : Input := ⟨0, spelling.chars ++ []⟩
          have hreads : input.Reads spelling.chars ⟨_, []⟩ := Input.reads_append 0 _ []
          obtain ⟨rfl, -⟩ := Reader.spelling_eq_of_reads hreads (hchars ▸ hreads)
          rfl

/-- A text falls into maximal chunks in only one way. -/
theorem eq_of_text_eq {chunks others : List Chunk} (h : text chunks = text others)
    (hmax : Maximal chunks) (hmax' : Maximal others) : chunks = others := by
  induction chunks generalizing others with
  | nil =>
      cases others with
      | nil => rfl
      | cons other others => simp [chars_ne_nil] at h
  | cons chunk chunks ih =>
      cases others with
      | nil => simp [chars_ne_nil] at h
      | cons other others =>
          let input : Input := ⟨0, text (chunk :: chunks)⟩
          let stop : Input := ⟨Text.byteLength (text (chunk :: chunks)), []⟩
          have hreads : input.Reads (text (chunk :: chunks)) stop := by
            simp [Input.Reads, input, stop]
          have hstop : stop.EndsPlain := Input.endsPlain_of_nil rfl
          obtain ⟨mid, hchunk, hchunks⟩ := hreads.split
          obtain ⟨mid', hother, hothers⟩ := (h ▸ hreads).split
          have hstep := Input.step_of_chunk hchunk
            (Input.endsPlain_of_maximal hmax hchunks fun _ _ _ => hstop)
          have hstep' := Input.step_of_chunk hother
            (Input.endsPlain_of_maximal hmax' hothers fun _ _ _ => hstop)
          obtain ⟨-, rfl⟩ := Step.segment.inj (hstep.symm.trans hstep')
          rw [chars_injective (hchunk.text_eq hother),
            ih (hchunks.text_eq hothers) hmax.of_cons hmax'.of_cons]

/-! ### Joining plain text -/

/-- Puts a chunk in front of others. Plain text is joined to plain text behind it. -/
def joinTo : Chunk → List Chunk → List Chunk
  | plain front hne hpercent, plain back _ hpercent' :: others =>
      plain (front ++ back) (by simp [hne]) (by simp [hpercent, hpercent']) :: others
  | chunk, others => chunk :: others

/-- Chunks for the same text, with no two runs of plain text side by side. -/
def joined (chunks : List Chunk) : List Chunk :=
  chunks.foldr joinTo []

theorem text_joinTo (chunk : Chunk) (others : List Chunk) :
    text (joinTo chunk others) = text (chunk :: others) := by
  fun_cases joinTo chunk others with
  | case1 front hne hpercent back hne' hpercent' others => simp [chars]
  | case2 => rfl

theorem maximal_joinTo (chunk : Chunk) {others : List Chunk} (h : Maximal others) :
    Maximal (joinTo chunk others) := by
  fun_cases joinTo chunk others with
  | case1 front hne hpercent back hne' hpercent' others =>
      rw [Maximal, List.isChain_cons] at h ⊢
      exact h
  | case2 chunk others hjoint =>
      refine List.isChain_cons.mpr ⟨?_, h⟩
      intro next hnext hplain
      obtain ⟨rest, rfl⟩ := List.head?_eq_some_iff.mp hnext
      cases chunk with
      | specifier _ _ => exact hplain.1
      | plain front hne hpercent =>
          cases next with
          | specifier _ _ => exact hplain.2
          | plain back hne' hpercent' => exact hjoint _ _ _ _ _ _ _ rfl rfl

theorem text_joined (chunks : List Chunk) : text (joined chunks) = text chunks := by
  induction chunks with
  | nil => rfl
  | cons chunk chunks ih =>
      rw [text_cons, ← ih]
      exact text_joinTo chunk (joined chunks)

theorem maximal_joined (chunks : List Chunk) : Maximal (joined chunks) := by
  induction chunks with
  | nil => exact .nil
  | cons chunk chunks ih => exact maximal_joinTo chunk ih

/-- Neighbouring runs of plain text can be joined. -/
theorem exists_maximal (chunks : List Chunk) :
    ∃ others : List Chunk, text others = text chunks ∧ Maximal others :=
  ⟨joined chunks, text_joined chunks, maximal_joined chunks⟩

/-! ### Places -/

theorem map_value_located (offset : Nat) (chunks : List Chunk) :
    (located offset chunks).map Located.value = chunks.map segment := by
  induction chunks generalizing offset with
  | nil => rfl
  | cons chunk chunks ih => rw [located, List.map_cons, ih, List.map_cons]

theorem length_located_le (offset : Nat) (chunks : List Chunk) :
    (located offset chunks).length ≤ Text.byteLength (text chunks) := by
  induction chunks generalizing offset with
  | nil => simp [located]
  | cons chunk chunks ih =>
      have hpos := Text.byteLength_pos chunk.chars_ne_nil
      have hle := ih (offset + Text.byteLength chunk.chars)
      simp only [located, List.length_cons, text_cons, Text.byteLength_append]
      omega

end Chunk

/-! ## Parsing -/

theorem Reading.ofText_of_chunks {chunks : List Chunk} {format : String}
    (h : Chunk.text chunks = format.toList) (hmax : Chunk.Maximal chunks) :
    Reading.ofText format = ⟨Chunk.located 0 chunks, none⟩ := by
  let stop : Input := ⟨Text.byteLength format.toList, []⟩
  have hreads : (Input.ofText format).Reads (Chunk.text chunks) stop := by
    simp [Input.Reads, Input.ofText, stop, h]
  rw [ofText, Input.read_of_chunks hreads hmax fun _ _ _ => Input.endsPlain_of_nil rfl,
    Input.read_of_nil rfl]
  simp [Input.ofText]

theorem parse_eq_ok_iff {format : String} {segments : List (Located Segment)} :
    parse format = .ok segments ↔
      ∃ chunks : List Chunk, Chunk.text chunks = format.toList ∧ Chunk.Maximal chunks ∧
        Chunk.located 0 chunks = segments := by
  constructor
  · intro h
    obtain ⟨chunks, after, hreads, hmax, hlast, hafter⟩ := (Input.ofText format).exists_chunks
    have hread := Input.read_of_chunks hreads hmax hlast
    rcases hafter with hrest | ⟨fault, hfault⟩
    · have htext : Chunk.text chunks = format.toList := by
        simpa [hrest, Input.ofText] using hreads.1.symm
      rw [parse, Reading.ofText_of_chunks htext hmax] at h
      exact ⟨chunks, htext, hmax, Except.ok.inj h⟩
    · rw [after.read_eq, hfault] at hread
      rw [parse, Reading.ofText, hread] at h
      cases h
  · intro h
    obtain ⟨chunks, htext, hmax, rfl⟩ := h
    rw [parse, Reading.ofText_of_chunks htext hmax]

/-- Every segment takes at least one byte. -/
theorem length_le_of_parse {format : String} {segments : List (Located Segment)}
    (h : parse format = .ok segments) : segments.length ≤ Text.byteLength format.toList := by
  obtain ⟨chunks, htext, -, rfl⟩ := parse_eq_ok_iff.mp h
  rw [← htext]
  exact Chunk.length_located_le 0 chunks

/-- Parsing accepts exactly the texts that are put together from plain text and written
specifiers; the segments are the one maximal way to do so. -/
theorem parse_accepts_chunks (format : String) :
    ((∃ segments, parse format = .ok segments) ↔
      ∃ chunks : List Chunk, Chunk.text chunks = format.toList) ∧
    ∀ segments, parse format = .ok segments →
      ∃ chunks : List Chunk, Chunk.text chunks = format.toList ∧ Chunk.Maximal chunks ∧
        Chunk.located 0 chunks = segments ∧
        ∀ others : List Chunk, Chunk.text others = format.toList → Chunk.Maximal others →
          others = chunks := by
  refine ⟨⟨?_, ?_⟩, ?_⟩
  · intro h
    obtain ⟨segments, h⟩ := h
    obtain ⟨chunks, htext, -, -⟩ := parse_eq_ok_iff.mp h
    exact ⟨chunks, htext⟩
  · intro h
    obtain ⟨chunks, htext⟩ := h
    obtain ⟨others, hothers, hmax⟩ := Chunk.exists_maximal chunks
    exact ⟨_, parse_eq_ok_iff.mpr ⟨others, hothers.trans htext, hmax, rfl⟩⟩
  · intro segments h
    obtain ⟨chunks, htext, hmax, hlocated⟩ := parse_eq_ok_iff.mp h
    refine ⟨chunks, htext, hmax, hlocated, ?_⟩
    intro others hothers hmax'
    exact Chunk.eq_of_text_eq (hothers.trans htext.symm) hmax' hmax

theorem parse_accepts_chunks_relative :
    ∃ chunks : List Chunk, Chunk.text chunks = "x%02$<-8.3E%%".toList ∧ Chunk.Maximal chunks ∧
      Chunk.located 0 chunks =
        [⟨.literal "x", 0, 1⟩,
          ⟨.specifier ⟨.relative, .ofList [.leftJustify], some 8, some 3, .scientific, true⟩,
            1, 11⟩,
          ⟨.specifier ⟨.implicit, .empty, none, none, .percent, false⟩, 11, 13⟩] ∧
      ∀ others : List Chunk, Chunk.text others = "x%02$<-8.3E%%".toList →
        Chunk.Maximal others → others = chunks :=
  (parse_accepts_chunks "x%02$<-8.3E%%").2 _ (by decide +kernel)

end FormatCheck
