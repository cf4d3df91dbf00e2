import FormatCheck.Call.Resolution
import FormatCheck.Proofs.Call.Reference
import Mathlib.Algebra.Group.Nat.Defs
import Mathlib.Data.List.Induction

/-! # The history of a run

What a tracker knows after any run of specifiers can be read off the specifiers and the
positions that they resolved to, and so can what the next one resolves to. The
specifiers need not come from a text, and the run goes on after failures. -/

namespace FormatCheck

/-! ## What a history tells -/

/-- The position that a specifier names, if it reads an argument. -/
def Specifier.named? (specifier : Specifier) : Option UInt32 :=
  match specifier.reference? with
  | some (.explicit position) => some position
  | _ => none

/-- What is known after specifiers that resolved to the given positions. -/
structure Knows (specifiers : List Specifier) (positions : List UInt32) (tracker : Tracker) :
    Prop where
  lastExplicit : tracker.lastExplicit = (specifiers.filterMap Specifier.named?).getLast?
  lastUsed : tracker.lastUsed = positions.getLast?
  implicitCount : tracker.implicitCount.toNat = min (implicitReaders specifiers) (2 ^ 32 - 1)
  maxReferenced : tracker.maxReferenced = positions.max?.getD 0

/-- What a specifier gives after others that resolved to the given positions. What was
known before stays as it is unless the specifier resolves to a position. -/
inductive ResolvesAfter (specifiers : List Specifier) (positions : List UInt32)
    (known : Tracker) (specifier : Located Specifier) : Resolution → Prop where
  | skipped (hreads : specifier.value.readsArgument = false) :
      ResolvesAfter specifiers positions known specifier ⟨.ok none, known⟩
  | explicit {position : UInt32} {after : Tracker} (hreads : specifier.value.readsArgument = true)
      (hindex : specifier.value.index = .explicit position) :
      ResolvesAfter specifiers positions known specifier ⟨.ok (some position), after⟩
  | implicit {position : UInt32} {after : Tracker} (hreads : specifier.value.readsArgument = true)
      (hindex : specifier.value.index = .implicit)
      (hposition : position.toNat = min (implicitReaders specifiers + 1) (2 ^ 32 - 1)) :
      ResolvesAfter specifiers positions known specifier ⟨.ok (some position), after⟩
  | relative {position : UInt32} {after : Tracker} (hreads : specifier.value.readsArgument = true)
      (hindex : specifier.value.index = .relative)
      (hlast : positions.getLast? = some position) :
      ResolvesAfter specifiers positions known specifier ⟨.ok (some position), after⟩
  | noPrevious (hreads : specifier.value.readsArgument = true)
      (hindex : specifier.value.index = .relative) (hnone : positions = []) :
      ResolvesAfter specifiers positions known specifier
        ⟨.error ⟨.noPrevious, specifier.span⟩, known⟩

/-! ## One step -/

namespace Tracker

theorem resolution_of_ok {tracker after : Tracker} {specifier : Located Specifier}
    {position? : Option UInt32} (h : tracker.resolve specifier.value = .ok (position?, after)) :
    tracker.resolution specifier = ⟨.ok position?, after⟩ := by
  simp only [resolution, advance, h]

theorem resolution_of_error {tracker : Tracker} {specifier : Located Specifier}
    {reason : Missing} (h : tracker.resolve specifier.value = .error reason) :
    tracker.resolution specifier = ⟨.error ⟨reason, specifier.span⟩, tracker⟩ := by
  simp only [resolution, advance, h]

/-- All that one specifier can do to a tracker. -/
inductive StepOf (tracker : Tracker) (specifier : Located Specifier) : Resolution → Prop where
  | skipped (hreads : specifier.value.readsArgument = false) :
      StepOf tracker specifier ⟨.ok none, tracker⟩
  | explicit {position : UInt32} (hreads : specifier.value.readsArgument = true)
      (hindex : specifier.value.index = .explicit position) :
      StepOf tracker specifier
        ⟨.ok (some position), { tracker with lastExplicit := some position }.use position⟩
  | implicit {position : UInt32} (hreads : specifier.value.readsArgument = true)
      (hindex : specifier.value.index = .implicit)
      (hposition : position = increment tracker.implicitCount) :
      StepOf tracker specifier
        ⟨.ok (some position), { tracker with implicitCount := position }.use position⟩
  | relative {position : UInt32} (hreads : specifier.value.readsArgument = true)
      (hindex : specifier.value.index = .relative) (hused : tracker.lastUsed = some position) :
      StepOf tracker specifier ⟨.ok (some position), tracker.use position⟩
  | noPrevious (hreads : specifier.value.readsArgument = true)
      (hindex : specifier.value.index = .relative) (hused : tracker.lastUsed = none) :
      StepOf tracker specifier ⟨.error ⟨.noPrevious, specifier.span⟩, tracker⟩

theorem stepOf_resolution (tracker : Tracker) (specifier : Located Specifier) :
    StepOf tracker specifier (tracker.resolution specifier) := by
  cases hreads : specifier.value.readsArgument with
  | false =>
      rw [resolution_of_ok (by rw [resolve, hreads]; rfl)]
      exact .skipped hreads
  | true =>
      cases hindex : specifier.value.index with
      | explicit position =>
          rw [resolution_of_ok (by rw [resolve, hreads, hindex]; rfl)]
          exact .explicit hreads hindex
      | implicit =>
          rw [resolution_of_ok (by rw [resolve, hreads, hindex]; rfl)]
          exact .implicit hreads hindex rfl
      | relative =>
          cases hused : tracker.lastUsed with
          | some position =>
              rw [resolution_of_ok (by rw [resolve, hreads, hindex, resolveIndex, hused]; rfl)]
              exact .relative hreads hindex hused
          | none =>
              rw [resolution_of_error (by rw [resolve, hreads, hindex, resolveIndex, hused]; rfl)]
              exact .noPrevious hreads hindex hused

theorem toNat_increment_eq_min (n : UInt32) :
    (increment n).toNat = min (n.toNat + 1) (2 ^ 32 - 1) := by
  have hlt := n.toNat_lt_size
  by_cases h : n.toNat + 1 < UInt32.size
  · rw [toNat_increment h]
    simp only [UInt32.size] at h
    omega
  · rw [increment, if_neg h]
    simp only [UInt32.size] at h hlt
    omega

theorem max?_append_singleton (positions : List UInt32) (position : UInt32) :
    (positions ++ [position]).max?.getD 0 = max (positions.max?.getD 0) position := by
  cases positions with
  | nil =>
      apply UInt32.toNat_inj.mp
      rw [UInt32.toNat_max]
      simp
  | cons first positions => simp [List.max?]

end Tracker

namespace Knows

variable {specifiers : List Specifier} {positions : List UInt32} {tracker : Tracker}

theorem start : Knows [] [] .start :=
  ⟨rfl, rfl, rfl, rfl⟩

/-- A specifier that neither names a position nor counts changes nothing. -/
theorem skip {specifier : Specifier} (h : Knows specifiers positions tracker)
    (hnamed : specifier.named? = none)
    (himplicit : (specifier.readsArgument && specifier.index = .implicit) = false) :
    Knows (specifiers ++ [specifier]) positions tracker where
  lastExplicit := by simp [h.lastExplicit, hnamed]
  lastUsed := h.lastUsed
  implicitCount := by simp [h.implicitCount, implicitReaders_append_singleton, himplicit]
  maxReferenced := h.maxReferenced

/-- Noting the position that a specifier resolves to, once names and implicit specifiers
are taken care of. -/
theorem use {specifier : Specifier} (h : Knows specifiers positions tracker)
    (counted : Tracker) (position : UInt32)
    (hmax : counted.maxReferenced = tracker.maxReferenced)
    (hexplicit : counted.lastExplicit = specifier.named?.or tracker.lastExplicit)
    (hcount : counted.implicitCount.toNat =
      min (implicitReaders (specifiers ++ [specifier])) (2 ^ 32 - 1)) :
    Knows (specifiers ++ [specifier]) (positions ++ [position]) (counted.use position) where
  lastExplicit := by
    rw [Tracker.use, hexplicit, h.lastExplicit, List.filterMap_append]
    cases hnamed : specifier.named? <;> simp [hnamed]
  lastUsed := by simp [Tracker.use]
  implicitCount := hcount
  maxReferenced := by
    rw [Tracker.max?_append_singleton, ← h.maxReferenced, ← hmax, Tracker.use]

/-- One step: the next specifier resolves as its history demands, and is remembered. -/
theorem step {specifier : Located Specifier} {resolution : Resolution}
    (h : Knows specifiers positions tracker) (hstep : tracker.StepOf specifier resolution) :
    ResolvesAfter specifiers positions tracker specifier resolution ∧
      Knows (specifiers ++ [specifier.value]) (positions ++ resolution.position?.toList)
        resolution.after := by
  have hcount := implicitReaders_append_singleton specifiers specifier.value
  cases hstep with
  | skipped hreads =>
      rw [Resolution.position?, Option.toList_none, List.append_nil]
      refine ⟨.skipped hreads, h.skip ?_ (by simp [hreads])⟩
      simp [Specifier.named?, Specifier.reference?, hreads]
  | @explicit position hreads hindex =>
      refine ⟨.explicit hreads hindex,
        h.use { tracker with lastExplicit := some position } position rfl ?_ ?_⟩
      · simp [Specifier.named?, Specifier.reference?, hreads, hindex]
      · simp [hcount, hindex, h.implicitCount]
  | @implicit position hreads hindex hposition =>
      have hnext : position.toNat = min (implicitReaders specifiers + 1) (2 ^ 32 - 1) := by
        rw [hposition, Tracker.toNat_increment_eq_min, h.implicitCount]
        omega
      refine ⟨.implicit hreads hindex hnext,
        h.use { tracker with implicitCount := position } position rfl ?_ ?_⟩
      · simp [Specifier.named?, Specifier.reference?, hreads, hindex]
      · simpa [hcount, hreads, hindex] using hnext
  | @relative position hreads hindex hused =>
      refine ⟨.relative hreads hindex (h.lastUsed ▸ hused), h.use tracker position rfl ?_ ?_⟩
      · simp [Specifier.named?, Specifier.reference?, hreads, hindex]
      · simp [hcount, hindex, h.implicitCount]
  | noPrevious hreads hindex hused =>
      have hnone : positions = [] := by
        rw [h.lastUsed] at hused
        exact List.getLast?_eq_none_iff.mp hused
      rw [Resolution.position?, Option.toList_none, List.append_nil]
      refine ⟨.noPrevious hreads hindex hnone, h.skip ?_ (by simp [hindex])⟩
      simp [Specifier.named?, Specifier.reference?, hreads, hindex]

end Knows

/-! ## Whole runs -/

/-- The positions that specifiers resolve to when they are followed from the start. -/
def resolvedPositions (specifiers : List (Located Specifier)) : List UInt32 :=
  (Tracker.start.run specifiers).filterMap Resolution.position?

namespace Tracker

theorem known_cons (tracker : Tracker) (specifier : Located Specifier)
    (rest : List (Located Specifier)) :
    tracker.known (specifier :: rest) = (tracker.resolution specifier).after.known rest := by
  rw [known, known, run, List.getLast?_cons]
  cases ((tracker.resolution specifier).after.run rest).getLast? <;> rfl

/-- A run goes on from what is known after its first part. -/
theorem run_append (tracker : Tracker) (before behind : List (Located Specifier)) :
    tracker.run (before ++ behind) = tracker.run before ++ (tracker.known before).run behind := by
  induction before generalizing tracker with
  | nil => rfl
  | cons specifier before ih =>
      rw [List.cons_append, run, ih, known_cons, run, List.cons_append]

theorem length_run (tracker : Tracker) (specifiers : List (Located Specifier)) :
    (tracker.run specifiers).length = specifiers.length := by
  induction specifiers generalizing tracker with
  | nil => rfl
  | cons specifier rest ih => rw [run, List.length_cons, ih, List.length_cons]

theorem known_append_singleton (tracker : Tracker) (before : List (Located Specifier))
    (specifier : Located Specifier) :
    tracker.known (before ++ [specifier]) =
      ((tracker.known before).resolution specifier).after := by
  rw [known, run_append]
  simp [run]

end Tracker

theorem resolvedPositions_append_singleton (before : List (Located Specifier))
    (specifier : Located Specifier) :
    resolvedPositions (before ++ [specifier]) = resolvedPositions before ++
      ((Tracker.start.known before).resolution specifier).position?.toList := by
  rw [resolvedPositions, Tracker.run_append, List.filterMap_append]
  cases hposition : ((Tracker.start.known before).resolution specifier).position? <;>
    simp [resolvedPositions, Tracker.run, hposition]

/-- Whatever was followed, the tracker knows its history. -/
theorem knows_known (specifiers : List (Located Specifier)) :
    Knows (specifiers.map Located.value) (resolvedPositions specifiers)
      (Tracker.start.known specifiers) := by
  induction specifiers using List.reverseRecOn with
  | nil => exact .start
  | append_singleton specifiers specifier ih =>
      rw [List.map_append, resolvedPositions_append_singleton, Tracker.known_append_singleton]
      exact (ih.step (Tracker.stepOf_resolution _ specifier)).2

/-- Each specifier of a run resolves by what stands before it and the positions found
there, and after it the tracker knows them all. -/
theorem run_recalls_history (before behind : List (Located Specifier))
    (specifier : Located Specifier) :
    ∃ resolution : Resolution,
      (Tracker.start.run (before ++ specifier :: behind))[before.length]? = some resolution ∧
      ResolvesAfter (before.map Located.value) (resolvedPositions before)
        (Tracker.start.known before) specifier resolution ∧
      Tracker.start.known (before ++ [specifier]) = resolution.after ∧
      Knows ((before ++ [specifier]).map Located.value)
        (resolvedPositions (before ++ [specifier])) resolution.after := by
  refine ⟨(Tracker.start.known before).resolution specifier, ?_,
    ((knows_known before).step (Tracker.stepOf_resolution _ specifier)).1,
    Tracker.known_append_singleton _ _ _, ?_⟩
  · have hlength := Tracker.start.length_run before
    rw [Tracker.run_append, List.getElem?_append_right (Nat.le_of_eq hlength), hlength,
      Nat.sub_self, Tracker.run, List.getElem?_cons_zero]
  · rw [← Tracker.known_append_singleton]
    exact knows_known (before ++ [specifier])

end FormatCheck
