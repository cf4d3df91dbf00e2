import FormatCheck.Call.Tracker
import Mathlib.Data.UInt

/-! # References by place

The position that a specifier refers to depends only on its own place among the others
and on what stands before it. Following the specifiers from left to right finds it. -/

namespace FormatCheck

/-! ## Positions -/

/-- The specifier at a place reads an argument. -/
structure ReadsAt (specifiers : List Specifier) (place : Nat) (specifier : Specifier) : Prop where
  at_place : specifiers[place]? = some specifier
  reads : specifier.readsArgument = true

/-- No specifier before a place reads an argument. -/
def NoneBefore (specifiers : List Specifier) (place : Nat) : Prop :=
  ∀ earlier < place, ∀ specifier, ¬ReadsAt specifiers earlier specifier

/-- The nearest place before another whose specifier reads an argument. -/
structure NearestBefore (specifiers : List Specifier) (earlier place : Nat) : Prop where
  lt : earlier < place
  reads : ∃ specifier, ReadsAt specifiers earlier specifier
  nearest : ∀ between, earlier < between → between < place →
    ∀ specifier, ¬ReadsAt specifiers between specifier

/-- The number of specifiers that read the next argument in order. -/
def implicitReaders (specifiers : List Specifier) : Nat :=
  specifiers.countP fun specifier => specifier.readsArgument && specifier.index = .implicit

/-- The position, counted from one, that the specifier at a place refers to. The rules
do not invoke the tracker. -/
inductive RefersTo (specifiers : List Specifier) : Nat → Nat → Prop where
  | explicit {place : Nat} {specifier : Specifier} {position : UInt32}
      (hreads : ReadsAt specifiers place specifier)
      (hindex : specifier.index = .explicit position) :
      RefersTo specifiers place position.toNat
  | implicit {place : Nat} {specifier : Specifier}
      (hreads : ReadsAt specifiers place specifier) (hindex : specifier.index = .implicit) :
      RefersTo specifiers place (implicitReaders (specifiers.take (place + 1)))
  | relative {place earlier position : Nat} {specifier : Specifier}
      (hreads : ReadsAt specifiers place specifier) (hindex : specifier.index = .relative)
      (hnearest : NearestBefore specifiers earlier place)
      (hearlier : RefersTo specifiers earlier position) :
      RefersTo specifiers place position

/-- The highest position that the specifiers before a place refer to, zero if there
is none. -/
structure HighestBefore (specifiers : List Specifier) (place highest : Nat) : Prop where
  le : ∀ earlier < place, ∀ position, RefersTo specifiers earlier position → position ≤ highest
  reached : highest = 0 ∨ ∃ earlier < place, RefersTo specifiers earlier highest

/-! ## Each place refers to one position -/

theorem ReadsAt.unique {specifiers : List Specifier} {place : Nat} {specifier other : Specifier}
    (h : ReadsAt specifiers place specifier) (hother : ReadsAt specifiers place other) :
    specifier = other :=
  Option.some.inj (h.at_place.symm.trans hother.at_place)

theorem NearestBefore.unique {specifiers : List Specifier} {earlier other place : Nat}
    (h : NearestBefore specifiers earlier place) (hother : NearestBefore specifiers other place) :
    earlier = other := by
  obtain ⟨specifier, hreads⟩ := h.reads
  obtain ⟨specifier', hreads'⟩ := hother.reads
  rcases Nat.lt_trichotomy earlier other with hlt | heq | hgt
  · exact absurd hreads' (h.nearest other hlt hother.lt specifier')
  · exact heq
  · exact absurd hreads (hother.nearest earlier hgt h.lt specifier)

theorem RefersTo.exists_reads {specifiers : List Specifier} {place position : Nat}
    (h : RefersTo specifiers place position) : ∃ specifier, ReadsAt specifiers place specifier := by
  cases h with
  | explicit hreads _ => exact ⟨_, hreads⟩
  | implicit hreads _ => exact ⟨_, hreads⟩
  | relative hreads _ _ _ => exact ⟨_, hreads⟩

theorem RefersTo.unique {specifiers : List Specifier} {place position other : Nat}
    (h : RefersTo specifiers place position) (hother : RefersTo specifiers place other) :
    position = other := by
  induction h generalizing other with
  | explicit hreads hindex =>
      cases hother with
      | explicit hreads' hindex' | implicit hreads' hindex' | relative hreads' hindex' _ _ =>
          cases hreads.unique hreads'
          simp_all
  | implicit hreads hindex =>
      cases hother with
      | implicit _ _ => rfl
      | explicit hreads' hindex' | relative hreads' hindex' _ _ =>
          cases hreads.unique hreads'
          simp_all
  | relative hreads hindex hnearest hearlier ih =>
      cases hother with
      | explicit hreads' hindex' | implicit hreads' hindex' =>
          cases hreads.unique hreads'
          simp_all
      | relative _ _ hnearest' hearlier' =>
          cases hnearest.unique hnearest'
          exact ih hearlier'

theorem HighestBefore.unique {specifiers : List Specifier} {place highest other : Nat}
    (h : HighestBefore specifiers place highest) (hother : HighestBefore specifiers place other) :
    highest = other := by
  have hle : highest ≤ other := by
    rcases h.reached with hzero | ⟨earlier, hlt, hrefers⟩
    · omega
    · exact hother.le earlier hlt highest hrefers
  have hge : other ≤ highest := by
    rcases hother.reached with hzero | ⟨earlier, hlt, hrefers⟩
    · omega
    · exact h.le earlier hlt other hrefers
  omega

theorem implicitReaders_append_singleton (specifiers : List Specifier) (specifier : Specifier) :
    implicitReaders (specifiers ++ [specifier]) = implicitReaders specifiers +
      if specifier.readsArgument && specifier.index = .implicit then 1 else 0 := by
  rw [implicitReaders, List.countP_append, List.countP_singleton]
  rfl

theorem implicitReaders_take_succ {specifiers : List Specifier} {place : Nat}
    {specifier : Specifier} (h : specifiers[place]? = some specifier) :
    implicitReaders (specifiers.take (place + 1)) =
      implicitReaders (specifiers.take place) +
        if specifier.readsArgument && specifier.index = .implicit then 1 else 0 := by
  rw [List.take_add_one, h]
  exact implicitReaders_append_singleton (specifiers.take place) specifier

/-- Positions start at one unless a specifier names position zero. -/
theorem RefersTo.pos {specifiers : List Specifier} {place position : Nat}
    (hzero : ∀ specifier ∈ specifiers, specifier.index ≠ .explicit 0)
    (h : RefersTo specifiers place position) : 0 < position := by
  induction h with
  | @explicit place specifier position hreads hindex =>
      have hne : position ≠ 0 := by
        intro heq
        exact hzero specifier (List.mem_of_getElem? hreads.at_place) (heq ▸ hindex)
      exact Nat.pos_of_ne_zero fun h => hne (UInt32.toNat_inj.mp h)
  | implicit hreads hindex =>
      rw [implicitReaders_take_succ hreads.at_place]
      simp [hreads.reads, hindex]
  | relative _ _ _ _ ih => exact ih

/-! ## Only references matter -/

/-- How a specifier names its argument, if it reads one. -/
def Specifier.reference? (specifier : Specifier) : Option Index :=
  if specifier.readsArgument then some specifier.index else none

/-- Two sequences whose specifiers name their arguments alike, place by place. -/
def SameReferences (specifiers others : List Specifier) : Prop :=
  specifiers.map Specifier.reference? = others.map Specifier.reference?

theorem Specifier.reference?_eq_some_iff {specifier : Specifier} {index : Index} :
    specifier.reference? = some index ↔
      specifier.readsArgument = true ∧ specifier.index = index := by
  by_cases h : specifier.readsArgument = true
  · simp [reference?, h]
  · simp [reference?, h]

theorem implicitReaders_eq_count (specifiers : List Specifier) :
    implicitReaders specifiers =
      (specifiers.map Specifier.reference?).count (some .implicit) := by
  rw [implicitReaders, List.count, List.countP_map]
  apply List.countP_congr
  intro specifier _
  simp [Specifier.reference?_eq_some_iff]

theorem Tracker.resolve_congr {specifier other : Specifier} (tracker : Tracker)
    (h : specifier.reference? = other.reference?) :
    tracker.resolve specifier = tracker.resolve other := by
  by_cases hreads : specifier.readsArgument = true
  · rw [Specifier.reference?, if_pos hreads] at h
    obtain ⟨hreads', hindex⟩ := Specifier.reference?_eq_some_iff.mp h.symm
    rw [resolve, if_pos hreads, resolve, if_pos hreads', hindex]
  · rw [Specifier.reference?, if_neg hreads] at h
    have hreads' : ¬other.readsArgument = true := by
      intro hreads'
      rw [Specifier.reference?, if_pos hreads'] at h
      cases h
    rw [resolve, if_neg hreads, resolve, if_neg hreads']

namespace SameReferences

variable {specifiers others : List Specifier}

theorem symm (h : SameReferences specifiers others) : SameReferences others specifiers :=
  Eq.symm h

theorem take (h : SameReferences specifiers others) (stop : Nat) :
    SameReferences (specifiers.take stop) (others.take stop) := by
  rw [SameReferences, List.map_take, h, List.map_take]

theorem readsAt {place : Nat} {specifier : Specifier} (h : SameReferences specifiers others)
    (hreads : ReadsAt specifiers place specifier) :
    ∃ other, ReadsAt others place other ∧ other.index = specifier.index := by
  have hplace : (others.map Specifier.reference?)[place]? = some specifier.reference? := by
    rw [← h, List.getElem?_map, hreads.at_place, Option.map_some]
  rw [List.getElem?_map] at hplace
  obtain ⟨other, hother, hreference⟩ := Option.map_eq_some_iff.mp hplace
  rw [Specifier.reference?_eq_some_iff.mpr ⟨hreads.reads, rfl⟩] at hreference
  obtain ⟨hreads', hindex⟩ := Specifier.reference?_eq_some_iff.mp hreference
  exact ⟨other, ⟨hother, hreads'⟩, hindex⟩

theorem noneBefore {place : Nat} (h : SameReferences specifiers others)
    (hnone : NoneBefore specifiers place) : NoneBefore others place := by
  intro earlier hlt other hother
  obtain ⟨specifier, hreads, -⟩ := h.symm.readsAt hother
  exact hnone earlier hlt specifier hreads

theorem nearestBefore {earlier place : Nat} (h : SameReferences specifiers others)
    (hnearest : NearestBefore specifiers earlier place) : NearestBefore others earlier place := by
  obtain ⟨specifier, hreads⟩ := hnearest.reads
  obtain ⟨other, hother, -⟩ := h.readsAt hreads
  refine ⟨hnearest.lt, ⟨other, hother⟩, ?_⟩
  intro between hafter hlt found hfound
  obtain ⟨back, hback, -⟩ := h.symm.readsAt hfound
  exact hnearest.nearest between hafter hlt back hback

theorem refersTo {place position : Nat} (h : SameReferences specifiers others)
    (hrefers : RefersTo specifiers place position) : RefersTo others place position := by
  induction hrefers with
  | explicit hreads hindex =>
      obtain ⟨other, hother, hindex'⟩ := h.readsAt hreads
      exact .explicit hother (hindex'.trans hindex)
  | @implicit place _ hreads hindex =>
      obtain ⟨other, hother, hindex'⟩ := h.readsAt hreads
      rw [implicitReaders_eq_count, h.take (place + 1), ← implicitReaders_eq_count]
      exact .implicit hother (hindex'.trans hindex)
  | relative hreads hindex hnearest _ ih =>
      obtain ⟨other, hother, hindex'⟩ := h.readsAt hreads
      exact .relative hother (hindex'.trans hindex) (h.nearestBefore hnearest) ih

theorem highestBefore {place highest : Nat} (h : SameReferences specifiers others)
    (hhighest : HighestBefore specifiers place highest) : HighestBefore others place highest := by
  refine ⟨?_, ?_⟩
  · intro earlier hlt position hrefers
    exact hhighest.le earlier hlt position (h.symm.refersTo hrefers)
  · rcases hhighest.reached with hzero | ⟨earlier, hlt, hrefers⟩
    · exact .inl hzero
    · exact .inr ⟨earlier, hlt, h.refersTo hrefers⟩

/-- Every specifier resolves alike, also behind failures. -/
theorem resolveAll (h : SameReferences specifiers others) (tracker : Tracker) :
    tracker.resolveAll specifiers = tracker.resolveAll others := by
  induction specifiers generalizing others tracker with
  | nil =>
      obtain rfl : others = [] := List.map_eq_nil_iff.mp (Eq.symm h)
      rfl
  | cons specifier specifiers ih =>
      cases others with
      | nil => cases h
      | cons other others =>
          obtain ⟨hfirst, hrest⟩ := List.cons.inj h
          rw [Tracker.resolveAll, Tracker.resolveAll, Tracker.advance, Tracker.advance,
            tracker.resolve_congr hfirst, ih hrest]

end SameReferences

/-! ## The tracker -/

theorem Tracker.toNat_increment {n : UInt32} (h : n.toNat + 1 < UInt32.size) :
    (increment n).toNat = n.toNat + 1 := by
  rw [increment, if_pos h, UInt32.toNat_add]
  exact Nat.mod_eq_of_lt h

/-- What a tracker knows when the specifiers before a place have been followed. -/
structure Tracked (specifiers : List Specifier) (place : Nat) (tracker : Tracker) : Prop where
  implicitCount : tracker.implicitCount.toNat = implicitReaders (specifiers.take place)
  lastUsed_none : tracker.lastUsed = none → NoneBefore specifiers place
  lastUsed_some : ∀ position, tracker.lastUsed = some position →
    ∃ earlier, NearestBefore specifiers earlier place ∧
      RefersTo specifiers earlier position.toNat
  maxReferenced : HighestBefore specifiers place tracker.maxReferenced.toNat

theorem tracked_start (specifiers : List Specifier) : Tracked specifiers 0 .start where
  implicitCount := rfl
  lastUsed_none := by
    intro _ earlier hlt
    omega
  lastUsed_some := by
    intro position h
    cases h
  maxReferenced := ⟨fun _ hlt => by omega, .inl rfl⟩

/-- What following the specifier at a place can give. -/
inductive Followed (specifiers : List Specifier) (place : Nat) (specifier : Specifier) :
    Except Missing (Option UInt32 × Tracker) → Prop where
  | skipped {after : Tracker} (hreads : specifier.readsArgument = false)
      (htracked : Tracked specifiers (place + 1) after) :
      Followed specifiers place specifier (.ok (none, after))
  | read {position : UInt32} {after : Tracker} (hreads : ReadsAt specifiers place specifier)
      (hrefers : RefersTo specifiers place position.toNat)
      (htracked : Tracked specifiers (place + 1) after) :
      Followed specifiers place specifier (.ok (some position, after))
  | noPrevious (hreads : ReadsAt specifiers place specifier)
      (hindex : specifier.index = .relative) (hnone : NoneBefore specifiers place) :
      Followed specifiers place specifier (.error .noPrevious)

namespace Tracked

variable {specifiers : List Specifier} {place : Nat} {tracker : Tracker} {specifier : Specifier}

theorem skip (h : Tracked specifiers place tracker) (hplace : specifiers[place]? = some specifier)
    (hreads : specifier.readsArgument = false) : Tracked specifiers (place + 1) tracker := by
  have hnot : ∀ other, ¬ReadsAt specifiers place other := by
    intro other hother
    obtain rfl : specifier = other := Option.some.inj (hplace.symm.trans hother.at_place)
    simp [hother.reads] at hreads
  refine ⟨?_, ?_, ?_, ?_, ?_⟩
  · rw [implicitReaders_take_succ hplace, h.implicitCount]
    simp [hreads]
  · intro hnone earlier hlt
    rcases Nat.lt_succ_iff_lt_or_eq.mp hlt with hlt | rfl
    · exact h.lastUsed_none hnone earlier hlt
    · exact hnot
  · intro position hposition
    obtain ⟨earlier, hnearest, hrefers⟩ := h.lastUsed_some position hposition
    refine ⟨earlier, ⟨by have := hnearest.lt; omega, hnearest.reads, ?_⟩, hrefers⟩
    intro between hafter hlt
    rcases Nat.lt_succ_iff_lt_or_eq.mp hlt with hlt | rfl
    · exact hnearest.nearest between hafter hlt
    · exact hnot
  · intro earlier hlt position hrefers
    rcases Nat.lt_succ_iff_lt_or_eq.mp hlt with hlt | rfl
    · exact h.maxReferenced.le earlier hlt position hrefers
    · obtain ⟨other, hother⟩ := hrefers.exists_reads
      exact absurd hother (hnot other)
  · rcases h.maxReferenced.reached with hzero | ⟨earlier, hlt, hrefers⟩
    · exact .inl hzero
    · exact .inr ⟨earlier, by omega, hrefers⟩

/-- Noting the position that a specifier refers to, once the implicit specifiers are
counted, keeps the tracker right. -/
theorem use {counted : Tracker} {position : UInt32} (h : Tracked specifiers place tracker)
    (hreads : ReadsAt specifiers place specifier)
    (hrefers : RefersTo specifiers place position.toNat)
    (hmax : counted.maxReferenced = tracker.maxReferenced)
    (hcount : counted.implicitCount.toNat = implicitReaders (specifiers.take (place + 1))) :
    Tracked specifiers (place + 1) (counted.use position) := by
  have hmaxNat : (counted.use position).maxReferenced.toNat =
      max tracker.maxReferenced.toNat position.toNat := by
    rw [Tracker.use, UInt32.toNat_max, hmax]
  refine ⟨hcount, ?_, ?_, ?_, ?_⟩
  · intro hnone
    cases hnone
  · intro used hused
    obtain rfl : position = used := Option.some.inj hused
    exact ⟨place, ⟨by omega, ⟨specifier, hreads⟩, fun _ _ _ => by omega⟩, hrefers⟩
  · intro earlier hlt other hother
    rw [hmaxNat]
    rcases Nat.lt_succ_iff_lt_or_eq.mp hlt with hlt | rfl
    · have := h.maxReferenced.le earlier hlt other hother
      omega
    · have := hother.unique hrefers
      omega
  · rw [hmaxNat]
    rcases Nat.le_total tracker.maxReferenced.toNat position.toNat with hle | hle
    · rw [Nat.max_eq_right hle]
      exact .inr ⟨place, by omega, hrefers⟩
    · rw [Nat.max_eq_left hle]
      rcases h.maxReferenced.reached with hzero | ⟨earlier, hlt, hearlier⟩
      · exact .inl hzero
      · exact .inr ⟨earlier, by omega, hearlier⟩

/-- One step: the rules and the tracker agree on the specifier at the next place. The
count of implicit specifiers must not have stopped at the largest number. -/
theorem resolve (h : Tracked specifiers place tracker)
    (hplace : specifiers[place]? = some specifier) (hlength : specifiers.length < UInt32.size) :
    Followed specifiers place specifier (tracker.resolve specifier) := by
  by_cases hreads : specifier.readsArgument = true
  · have hat : ReadsAt specifiers place specifier := ⟨hplace, hreads⟩
    have htake := implicitReaders_take_succ hplace
    rw [Tracker.resolve, if_pos hreads]
    cases hindex : specifier.index with
    | explicit position =>
        have hrefers := RefersTo.explicit hat hindex
        refine .read hat hrefers (h.use hat hrefers rfl ?_)
        rw [htake, ← h.implicitCount]
        simp [hindex]
    | relative =>
        cases hused : tracker.lastUsed with
        | none =>
            simp only [Tracker.resolveIndex, hused]
            exact .noPrevious hat hindex (h.lastUsed_none hused)
        | some position =>
            obtain ⟨earlier, hnearest, hearlier⟩ := h.lastUsed_some position hused
            have hrefers := RefersTo.relative hat hindex hnearest hearlier
            simp only [Tracker.resolveIndex, hused]
            refine .read hat hrefers (h.use hat hrefers rfl ?_)
            rw [htake, ← h.implicitCount]
            simp [hindex]
    | implicit =>
        have hcount : tracker.implicitCount.toNat + 1 =
            implicitReaders (specifiers.take (place + 1)) := by
          rw [htake, ← h.implicitCount]
          simp [hreads, hindex]
        have hle : implicitReaders (specifiers.take (place + 1)) ≤ specifiers.length :=
          Nat.le_trans List.countP_le_length (List.length_take_le' _ _)
        have hincrement : (Tracker.increment tracker.implicitCount).toNat =
            implicitReaders (specifiers.take (place + 1)) := by
          rw [Tracker.toNat_increment (by omega), hcount]
        have hrefers : RefersTo specifiers place
            (Tracker.increment tracker.implicitCount).toNat := by
          rw [hincrement]
          exact .implicit hat hindex
        exact .read hat hrefers (h.use hat hrefers rfl hincrement)
  · have hreads : specifier.readsArgument = false := Bool.not_eq_true _ ▸ hreads
    rw [Tracker.resolve, if_neg (by simp [hreads])]
    exact .skipped hreads (h.skip hplace hreads)

end Tracked

end FormatCheck
