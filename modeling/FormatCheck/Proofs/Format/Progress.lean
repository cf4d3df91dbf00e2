import FormatCheck.Proofs.Format.Decomposition

/-! # How far reading comes

Reading passes over chunks until the text ends or has a fault. What it passed over is
settled, whatever stands behind. -/

namespace FormatCheck

/-- Reading a text passes over chunks and comes to `after`. -/
structure Reached (format : String) (chunks : List Chunk) (after : Input) : Prop where
  reads : (Input.ofText format).Reads (Chunk.text chunks) after
  maximal : Chunk.Maximal chunks
  ends : ∀ chunk ∈ chunks.getLast?, chunk.IsPlain → after.EndsPlain

/-- Reading stops at the end of the text, or at a fault. -/
inductive Input.Stopped (input : Input) : Option (Located Fault) → Prop where
  | finished (hrest : input.rest = []) : Stopped input none
  | failed {fault : Located Fault} (hstep : input.step = .failed fault) :
      Stopped input (some fault)

theorem Input.Stopped.read_eq {input : Input} {fault? : Option (Located Fault)}
    (h : input.Stopped fault?) : input.read = ⟨[], fault?⟩ := by
  cases h with
  | finished hrest => exact read_of_nil hrest
  | failed hstep => rw [Input.read_eq, hstep]

namespace Reached

variable {format : String} {chunks : List Chunk} {after : Input}

theorem start (format : String) : Reached format [] (Input.ofText format) :=
  ⟨.refl _, .nil, by simp⟩

theorem toList_eq (h : Reached format chunks after) :
    format.toList = Chunk.text chunks ++ after.rest :=
  h.reads.1

theorem offset_eq (h : Reached format chunks after) :
    after.offset = Text.byteLength (Chunk.text chunks) :=
  h.reads.2.trans (Nat.zero_add _)

/-- More chunks can be passed. Plain text that was passed last ends before them. -/
theorem append {more : List Chunk} {stop : Input} (h : Reached format chunks after)
    (hreads : after.Reads (Chunk.text more) stop) (hmax : Chunk.Maximal more)
    (hends : ∀ chunk ∈ more.getLast?, chunk.IsPlain → stop.EndsPlain) :
    Reached format (chunks ++ more) stop where
  reads := by
    rw [Chunk.text_append]
    exact h.reads.append hreads
  maximal := by
    refine List.isChain_append.mpr ⟨h.maximal, hmax, ?_⟩
    intro last hlast next hnext hplain
    obtain ⟨others, rfl⟩ := List.head?_eq_some_iff.mp hnext
    obtain ⟨_, hreads, -⟩ := hreads.split
    exact (Input.endsPlain_iff hreads).mp (h.ends last hlast hplain.1) hplain.2
  ends := by
    intro chunk hchunk hplain
    cases more with
    | nil =>
        rw [hreads.after_eq (.refl after)]
        exact h.ends chunk (by simpa using hchunk) hplain
    | cons next more =>
        exact hends chunk (by simpa using hchunk) hplain

/-- Reading goes on until it stops. -/
theorem exists_stopped (h : Reached format chunks after) :
    ∃ (more : List Chunk) (stop : Input) (fault? : Option (Located Fault)),
      Reached format (chunks ++ more) stop ∧ after.Reads (Chunk.text more) stop ∧
      stop.Stopped fault? := by
  obtain ⟨more, stop, hreads, hmax, hends, hstop⟩ := after.exists_chunks
  have hreached := h.append hreads hmax hends
  rcases hstop with hrest | ⟨fault, hstep⟩
  · exact ⟨more, stop, none, hreached, hreads, .finished hrest⟩
  · exact ⟨more, stop, some fault, hreached, hreads, .failed hstep⟩

theorem reading_eq {fault? : Option (Located Fault)} (h : Reached format chunks after)
    (hstopped : after.Stopped fault?) :
    Reading.ofText format = ⟨Chunk.located 0 chunks, fault?⟩ := by
  rw [Reading.ofText, Input.read_of_chunks h.reads h.maximal h.ends, hstopped.read_eq,
    List.append_nil]
  rfl

theorem parse_eq_ok (h : Reached format chunks after) (hrest : after.rest = []) :
    parse format = .ok (Chunk.located 0 chunks) := by
  rw [parse, h.reading_eq (.finished hrest)]

theorem parse_eq_error {fault : Located Fault} (h : Reached format chunks after)
    (hstep : after.step = .failed fault) : parse format = .error fault := by
  rw [parse, h.reading_eq (.failed hstep)]

end Reached

/-- A text with a fault is read up to it. -/
theorem exists_reached_of_error {format : String} {fault : Located Fault}
    (h : parse format = .error fault) :
    ∃ chunks after, Reached format chunks after ∧ after.step = .failed fault := by
  obtain ⟨chunks, after, fault?, hreached, -, hstopped⟩ := (Reached.start format).exists_stopped
  cases hstopped with
  | finished hrest => cases h.symm.trans (hreached.parse_eq_ok hrest)
  | failed hstep =>
      cases h.symm.trans (hreached.parse_eq_error hstep)
      exact ⟨chunks, after, hreached, hstep⟩

end FormatCheck
