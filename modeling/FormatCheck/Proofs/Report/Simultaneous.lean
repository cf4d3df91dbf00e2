import FormatCheck.Proofs.Report.Substitutions

/-! # Substitutions made at once

When no two ranges of a fix overlap, making its substitutions one after the other is the same
as making all of them at once in the source. The order in which they are listed does not
matter then. -/

namespace FormatCheck

open List

/-! ## Ranges between characters -/

namespace Text

/-- The offset lies between characters of the text, or at one of its ends. -/
def IsBoundary (offset : Nat) (cs : List Char) : Prop :=
  ∃ front back, cs = front ++ back ∧ byteLength front = offset

theorem isBoundary_iff_take {offset : Nat} {cs : List Char} :
    IsBoundary offset cs ↔ ∃ count ≤ cs.length, byteLength (cs.take count) = offset := by
  constructor
  · rintro ⟨front, back, rfl, hfront⟩
    exact ⟨front.length, by simp, by simpa using hfront⟩
  · rintro ⟨count, -, hfront⟩
    exact ⟨cs.take count, cs.drop count, (List.take_append_drop _ _).symm, hfront⟩

instance (offset : Nat) (cs : List Char) : Decidable (IsBoundary offset cs) :=
  decidable_of_iff' _ isBoundary_iff_take

/-- Of two front parts of a text the shorter one is a front part of the other. -/
theorem exists_append_of_byteLength_le {as bs cs ds : List Char} (h : as ++ bs = cs ++ ds)
    (hle : byteLength as ≤ byteLength cs) : ∃ between, cs = as ++ between ∧ bs = between ++ ds := by
  rcases List.append_eq_append_iff.mp h with hmore | ⟨more, has, hds⟩
  · exact hmore
  · have hmore : more = [] := by
      by_contra hne
      have hpos := byteLength_pos hne
      rw [has, byteLength_append] at hle
      omega
    subst hmore
    exact ⟨[], by simpa using has.symm, by simpa using hds.symm⟩

theorem IsBoundary.append_right {offset : Nat} {cs : List Char} (h : IsBoundary offset cs)
    (rest : List Char) : IsBoundary offset (cs ++ rest) := by
  obtain ⟨front, back, rfl, hfront⟩ := h
  exact ⟨front, back ++ rest, List.append_assoc _ _ _, hfront⟩

theorem IsBoundary.of_append {offset : Nat} {cs rest : List Char}
    (h : IsBoundary offset (cs ++ rest)) (hle : offset ≤ byteLength cs) :
    IsBoundary offset cs := by
  obtain ⟨front, back, hsplit, rfl⟩ := h
  obtain ⟨between, rfl, -⟩ := exists_append_of_byteLength_le hsplit.symm hle
  exact ⟨front, between, rfl, rfl⟩

end Text

/-- The range runs forwards, from one place between characters of a text to another. -/
structure Span.Aligned (span : Span) (cs : List Char) : Prop where
  forward : span.start ≤ span.stop
  start : Text.IsBoundary span.start cs
  stop : Text.IsBoundary span.stop cs

instance (span : Span) (cs : List Char) : Decidable (span.Aligned cs) :=
  decidable_of_iff (span.start ≤ span.stop ∧ Text.IsBoundary span.start cs ∧
      Text.IsBoundary span.stop cs)
    ⟨fun h => ⟨h.1, h.2.1, h.2.2⟩, fun h => ⟨h.forward, h.start, h.stop⟩⟩

namespace Span.Aligned

variable {span : Span} {cs : List Char}

theorem append_right (h : span.Aligned cs) (rest : List Char) : span.Aligned (cs ++ rest) :=
  ⟨h.forward, h.start.append_right rest, h.stop.append_right rest⟩

theorem of_append {rest : List Char} (h : span.Aligned (cs ++ rest))
    (hle : span.stop ≤ Text.byteLength cs) : span.Aligned cs :=
  ⟨h.forward, h.start.of_append (h.forward.trans hle), h.stop.of_append hle⟩

theorem exists_split (h : span.Aligned cs) :
    ∃ front middle back, cs = front ++ (middle ++ back) ∧
      span = ⟨Text.byteLength front, Text.byteLength front + Text.byteLength middle⟩ := by
  obtain ⟨hforward, ⟨front, rest, rfl, hfront⟩, whole, back, hsplit, hwhole⟩ := h
  rw [← hfront, ← hwhole] at hforward
  obtain ⟨middle, rfl, rfl⟩ := Text.exists_append_of_byteLength_le hsplit hforward
  refine ⟨front, middle, back, rfl, ?_⟩
  rw [← Text.byteLength_append, hfront, hwhole]

theorem of_split {front middle back : List Char} (hcs : cs = front ++ (middle ++ back))
    (hspan : span = ⟨Text.byteLength front, Text.byteLength front + Text.byteLength middle⟩) :
    span.Aligned cs := by
  subst hcs hspan
  exact ⟨Nat.le_add_right _ _, ⟨front, middle ++ back, rfl, rfl⟩,
    ⟨front ++ middle, back, by simp, Text.byteLength_append _ _⟩⟩

end Span.Aligned

/-! ## Ranges beside each other -/

namespace Substitution

/-- The range starts, and stops, before another one starts. -/
structure Before (earlier later : Substitution) : Prop where
  start_lt : earlier.span.start < later.span.start
  stop_le : earlier.span.stop ≤ later.span.start

instance (earlier later : Substitution) : Decidable (earlier.Before later) :=
  decidable_of_iff (earlier.span.start < later.span.start ∧
      earlier.span.stop ≤ later.span.start)
    ⟨fun h => ⟨h.1, h.2⟩, fun h => ⟨h.start_lt, h.stop_le⟩⟩

/-- Of two ranges one stops before the other starts. -/
def Apart (substitution other : Substitution) : Prop :=
  substitution.Before other ∨ other.Before substitution

instance (substitution other : Substitution) : Decidable (substitution.Apart other) :=
  inferInstanceAs (Decidable (_ ∨ _))

theorem Apart.symm {substitution other : Substitution} (h : substitution.Apart other) :
    other.Apart substitution :=
  Or.symm h

theorem Apart.start_ne {substitution other : Substitution} (h : substitution.Apart other) :
    substitution.span.start ≠ other.span.start := by
  rcases h with hbefore | hbefore
  · exact Nat.ne_of_lt hbefore.start_lt
  · exact Nat.ne_of_gt hbefore.start_lt

/-- Each range stands before all that are listed before it. -/
def Descending (substitutions : List Substitution) : Prop :=
  substitutions.Pairwise fun later earlier => earlier.Before later

end Substitution

theorem Fix.descending_ordered {fix : Fix}
    (h : fix.substitutions.Pairwise Substitution.Apart) :
    Substitution.Descending fix.ordered := by
  have hapart : fix.ordered.Pairwise Substitution.Apart :=
    (fix.ordered_perm.pairwise_iff Substitution.Apart.symm).mpr h
  refine (hapart.and fix.pairwise_ordered).imp ?_
  rintro later earlier ⟨hbefore | hbefore, hle⟩
  · exact absurd hbefore.start_lt (Nat.not_lt.mpr hle)
  · exact hbefore

/-! ## What stands behind -/

namespace Substitution

/-- A substitution does not look at text behind its range. -/
theorem applyTo?_append {substitution : Substitution} {front : List Char}
    (h : substitution.span.stop ≤ Text.byteLength front) (back : List Char) :
    substitution.applyTo? (front ++ back) = (substitution.applyTo? front).map (· ++ back) := by
  apply Option.ext
  intro fixed
  rw [Option.map_eq_some_iff, applyTo?_eq_some_iff]
  constructor
  · rintro ⟨before, middle, after, hsplit, hspan, rfl⟩
    rw [hspan, ← Text.byteLength_append] at h
    rw [← List.append_assoc] at hsplit
    obtain ⟨between, rfl, rfl⟩ := Text.exists_append_of_byteLength_le hsplit.symm h
    refine ⟨before ++ substitution.snippet.toList ++ between, ?_, by simp⟩
    exact applyTo?_eq_some_iff.mpr ⟨before, middle, between, by simp, hspan, rfl⟩
  · rintro ⟨fixed, hfixed, rfl⟩
    obtain ⟨before, middle, between, rfl, hspan, rfl⟩ := applyTo?_eq_some_iff.mp hfixed
    exact ⟨before, middle, between ++ back, by simp, hspan, by simp⟩

/-- Text behind all ranges stays as it is. -/
theorem makeAll?_append {substitutions : List Substitution} (hdescending : Descending substitutions)
    {front : List Char} (h : ∀ substitution ∈ substitutions,
      substitution.span.stop ≤ Text.byteLength front) (back : List Char) :
    makeAll? substitutions (front ++ back) = (makeAll? substitutions front).map (· ++ back) := by
  induction substitutions generalizing front with
  | nil => rfl
  | cons last earlier ih =>
      obtain ⟨hlast, hearlier⟩ := List.pairwise_cons.mp hdescending
      rw [makeAll?_cons, makeAll?_cons, applyTo?_append (h last mem_cons_self)]
      cases hfixed : last.applyTo? front with
      | none => rfl
      | some fixed =>
          rw [Option.map_some, Option.bind_some, Option.bind_some]
          apply ih hearlier
          intro substitution hmem
          obtain ⟨before, middle, after, -, hspan, rfl⟩ := applyTo?_eq_some_iff.mp hfixed
          have hstop := (hlast substitution hmem).stop_le
          simp only [hspan, Text.byteLength_append] at hstop ⊢
          omega

end Substitution

/-! ## All at once -/

namespace Substitution

/-- The snippets whose ranges start at an offset. -/
def insertedAt (substitutions : List Substitution) (offset : Nat) : List Char :=
  (substitutions.filter (·.span.start = offset)).flatMap (·.snippet.toList)

/-- Whether one of the ranges has the byte at an offset in it. -/
def covers (substitutions : List Substitution) (offset : Nat) : Bool :=
  substitutions.any (·.span.contains offset)

/-- Rewrites a text that starts at an offset, from left to right: a snippet goes where its
range starts, characters in a range are dropped, and all others are kept. -/
def replaceAll (substitutions : List Substitution) (offset : Nat) : List Char → List Char
  | [] => insertedAt substitutions offset
  | c :: cs =>
      insertedAt substitutions offset ++ ((if covers substitutions offset then [] else [c]) ++
        replaceAll substitutions (offset + c.utf8Size) cs)

example : replaceAll [⟨⟨3, 5⟩, "%d"⟩, ⟨⟨0, 2⟩, "%s"⟩, ⟨.point 2, "|"⟩] 0 "%d %s✓".toList =
    "%s| %d✓".toList := by
  decide

theorem covers_eq_true_iff {substitutions : List Substitution} {offset : Nat} :
    covers substitutions offset = true ↔ ∃ substitution ∈ substitutions,
      substitution.span.start ≤ offset ∧ offset < substitution.span.stop := by
  simp [covers, Span.contains]

theorem covers_eq_false {substitutions : List Substitution} {offset : Nat}
    (h : ∀ substitution ∈ substitutions, substitution.span.stop ≤ offset) :
    covers substitutions offset = false := by
  rw [Bool.eq_false_iff, Ne, covers_eq_true_iff]
  rintro ⟨substitution, hmem, -, hlt⟩
  exact absurd hlt (Nat.not_lt.mpr (h substitution hmem))

theorem insertedAt_eq_nil {substitutions : List Substitution} {offset : Nat}
    (h : ∀ substitution ∈ substitutions, substitution.span.start ≠ offset) :
    insertedAt substitutions offset = [] := by
  have hnone : substitutions.filter (·.span.start = offset) = [] := by
    simpa using h
  rw [insertedAt, hnone, List.flatMap_nil]

theorem insertedAt_append (substitutions others : List Substitution) (offset : Nat) :
    insertedAt (substitutions ++ others) offset =
      insertedAt substitutions offset ++ insertedAt others offset := by
  simp [insertedAt]

theorem insertedAt_cons_self (substitution : Substitution) (substitutions : List Substitution) :
    insertedAt (substitution :: substitutions) substitution.span.start =
      substitution.snippet.toList ++ insertedAt substitutions substitution.span.start := by
  simp [insertedAt]

theorem insertedAt_cons_of_ne {substitution : Substitution} {offset : Nat}
    (h : substitution.span.start ≠ offset) (substitutions : List Substitution) :
    insertedAt (substitution :: substitutions) offset = insertedAt substitutions offset := by
  simp [insertedAt, h]

/-- Only one range starts where a range does. -/
theorem insertedAt_of_mem {substitutions : List Substitution} {substitution : Substitution}
    (hapart : substitutions.Pairwise Apart) (hmem : substitution ∈ substitutions) :
    insertedAt substitutions substitution.span.start = substitution.snippet.toList := by
  obtain ⟨front, back, rfl⟩ := List.append_of_mem hmem
  obtain ⟨-, hbehind, hfront⟩ := List.pairwise_append.mp hapart
  obtain ⟨hback, -⟩ := List.pairwise_cons.mp hbehind
  have hfront : insertedAt front substitution.span.start = [] :=
    insertedAt_eq_nil fun other hother => (hfront other hother _ mem_cons_self).start_ne
  have hback : insertedAt back substitution.span.start = [] :=
    insertedAt_eq_nil fun other hother => (hback other hother).start_ne.symm
  rw [insertedAt_append, hfront, List.nil_append, insertedAt_cons_self, hback, List.append_nil]

/-- The order of the list does not matter for ranges beside each other. -/
theorem insertedAt_perm {substitutions others : List Substitution}
    (hapart : substitutions.Pairwise Apart) (hperm : others ~ substitutions) (offset : Nat) :
    insertedAt others offset = insertedAt substitutions offset := by
  by_cases hstarts : ∃ substitution ∈ substitutions, substitution.span.start = offset
  · obtain ⟨substitution, hmem, rfl⟩ := hstarts
    rw [insertedAt_of_mem hapart hmem]
    exact insertedAt_of_mem ((hperm.pairwise_iff Apart.symm).mpr hapart) (hperm.mem_iff.mpr hmem)
  · have hnone : ∀ substitution ∈ substitutions, substitution.span.start ≠ offset := by
      intro substitution hmem hstart
      exact hstarts ⟨substitution, hmem, hstart⟩
    rw [insertedAt_eq_nil hnone]
    exact insertedAt_eq_nil fun substitution hmem => hnone substitution (hperm.mem_iff.mp hmem)

theorem replaceAll_perm {substitutions others : List Substitution}
    (hapart : substitutions.Pairwise Apart) (hperm : others ~ substitutions) (offset : Nat)
    (cs : List Char) : replaceAll others offset cs = replaceAll substitutions offset cs := by
  have hcovers : ∀ offset, covers others offset = covers substitutions offset :=
    fun offset => hperm.any_eq
  induction cs generalizing offset with
  | nil => exact insertedAt_perm hapart hperm offset
  | cons c cs ih => rw [replaceAll, replaceAll, insertedAt_perm hapart hperm, hcovers, ih]

/-- Behind all ranges the text stays as it is. -/
theorem replaceAll_of_behind {substitutions : List Substitution} {offset : Nat}
    (h : ∀ substitution ∈ substitutions,
      substitution.span.start < offset ∧ substitution.span.stop ≤ offset) (cs : List Char) :
    replaceAll substitutions offset cs = cs := by
  have hinserted : insertedAt substitutions offset = [] :=
    insertedAt_eq_nil fun substitution hmem => Nat.ne_of_lt (h substitution hmem).1
  induction cs generalizing offset with
  | nil => exact hinserted
  | cons c cs ih =>
      have hcovers : covers substitutions offset = false :=
        covers_eq_false fun substitution hmem => (h substitution hmem).2
      have hnext : ∀ substitution ∈ substitutions, substitution.span.start < offset + c.utf8Size ∧
          substitution.span.stop ≤ offset + c.utf8Size := by
        intro substitution hmem
        have hbehind := h substitution hmem
        omega
      rw [replaceAll, hinserted, hcovers, ih hnext]
      · rfl
      · exact insertedAt_eq_nil fun substitution hmem => Nat.ne_of_lt (hnext substitution hmem).1

section Last

variable {last : Substitution} {earlier : List Substitution}

theorem insertedAt_of_before (hearlier : ∀ substitution ∈ earlier, substitution.Before last) :
    insertedAt earlier last.span.start = [] :=
  insertedAt_eq_nil fun substitution hmem => Nat.ne_of_lt (hearlier substitution hmem).start_lt

/-- From inside the last range all is dropped up to its end. -/
theorem replaceAll_of_inside (hearlier : ∀ substitution ∈ earlier, substitution.Before last)
    {offset : Nat} {middle : List Char} (hstart : last.span.start < offset)
    (hstop : offset + Text.byteLength middle = last.span.stop) (back : List Char) :
    replaceAll (last :: earlier) offset (middle ++ back) = back := by
  have hstarts : ∀ substitution ∈ last :: earlier, substitution.span.start < offset := by
    intro substitution hmem
    rcases List.mem_cons.mp hmem with rfl | hmem
    · exact hstart
    · exact (hearlier substitution hmem).start_lt.trans hstart
  induction middle generalizing offset with
  | nil =>
      apply replaceAll_of_behind
      intro substitution hmem
      refine ⟨hstarts substitution hmem, ?_⟩
      rcases List.mem_cons.mp hmem with rfl | hmem
      · exact hstop.ge
      · exact (hearlier substitution hmem).stop_le.trans hstart.le
  | cons c middle ih =>
      have hsize := c.utf8Size_pos
      rw [Text.byteLength_cons] at hstop
      have hcovers : covers (last :: earlier) offset = true :=
        covers_eq_true_iff.mpr ⟨last, mem_cons_self, hstart.le, by omega⟩
      have hinserted : insertedAt (last :: earlier) offset = [] :=
        insertedAt_eq_nil fun substitution hmem => Nat.ne_of_lt (hstarts substitution hmem)
      rw [List.cons_append, replaceAll, hinserted, hcovers]
      refine ih (by omega) (by omega) ?_
      intro substitution hmem
      have hlt := hstarts substitution hmem
      omega

/-- From where the last range starts, its snippet stands in place of what it holds. -/
theorem replaceAll_of_start (hearlier : ∀ substitution ∈ earlier, substitution.Before last)
    {middle : List Char} (hstop : last.span.start + Text.byteLength middle = last.span.stop)
    (back : List Char) :
    replaceAll (last :: earlier) last.span.start (middle ++ back) =
      last.snippet.toList ++ back := by
  have hinserted : insertedAt (last :: earlier) last.span.start = last.snippet.toList := by
    rw [insertedAt_cons_self, insertedAt_of_before hearlier, List.append_nil]
  cases middle with
  | cons c middle =>
      have hsize := c.utf8Size_pos
      rw [Text.byteLength_cons] at hstop
      have hcovers : covers (last :: earlier) last.span.start = true :=
        covers_eq_true_iff.mpr ⟨last, mem_cons_self, Nat.le_refl _, by omega⟩
      rw [List.cons_append, replaceAll, hinserted, hcovers,
        replaceAll_of_inside hearlier (by omega) (by omega)]
      rfl
  | nil =>
      -- The range is empty, so the snippet is inserted and nothing is dropped.
      have hstops : ∀ substitution ∈ last :: earlier,
          substitution.span.start ≤ last.span.start ∧ substitution.span.stop ≤ last.span.start := by
        intro substitution hmem
        rcases List.mem_cons.mp hmem with rfl | hmem
        · exact ⟨Nat.le_refl _, hstop.ge⟩
        · exact ⟨(hearlier substitution hmem).start_lt.le, (hearlier substitution hmem).stop_le⟩
      cases back with
      | nil => rw [List.nil_append, replaceAll, hinserted, List.append_nil]
      | cons c back =>
          have hsize := c.utf8Size_pos
          have hcovers : covers (last :: earlier) last.span.start = false :=
            covers_eq_false fun substitution hmem => (hstops substitution hmem).2
          rw [List.nil_append, replaceAll, hinserted, hcovers, replaceAll_of_behind]
          · rfl
          · intro substitution hmem
            have hle := hstops substitution hmem
            omega

/-- Up to where the last range starts, only the earlier ones change the text. -/
theorem replaceAll_append (hearlier : ∀ substitution ∈ earlier, substitution.Before last)
    {offset : Nat} {front : List Char}
    (hfront : offset + Text.byteLength front = last.span.start) (rest : List Char) :
    replaceAll (last :: earlier) offset (front ++ rest) =
      replaceAll earlier offset front ++ replaceAll (last :: earlier) last.span.start rest := by
  induction front generalizing offset with
  | nil =>
      obtain rfl : offset = last.span.start := hfront
      rw [replaceAll, insertedAt_of_before hearlier, List.nil_append, List.nil_append]
  | cons c front ih =>
      have hsize := c.utf8Size_pos
      rw [Text.byteLength_cons] at hfront
      have hinserted : insertedAt (last :: earlier) offset = insertedAt earlier offset :=
        insertedAt_cons_of_ne (by omega) earlier
      have hcovers : covers (last :: earlier) offset = covers earlier offset := by
        have hlast : last.span.contains offset = false := by
          simp only [Span.contains, Bool.and_eq_false_imp, decide_eq_true_eq]
          omega
        rw [covers, List.any_cons, hlast, Bool.false_or]
        rfl
      rw [List.cons_append, replaceAll, hinserted, hcovers, ih (by omega), replaceAll]
      simp only [List.append_assoc]

/-- The last substitution is made on its own, and then the earlier ones in front of it. -/
theorem makeAll?_cons_of_split (hdescending : Descending (last :: earlier))
    {front middle back : List Char} (hspan : last.span =
      ⟨Text.byteLength front, Text.byteLength front + Text.byteLength middle⟩) :
    makeAll? (last :: earlier) (front ++ (middle ++ back)) =
      (makeAll? earlier front).map (· ++ (last.snippet.toList ++ back)) := by
  obtain ⟨hlast, hearlier⟩ := List.pairwise_cons.mp hdescending
  rw [makeAll?_cons, applyTo?_of_append hspan, Option.bind_some, List.append_assoc]
  apply makeAll?_append hearlier
  intro substitution hmem
  have hstop := (hlast substitution hmem).stop_le
  rwa [hspan] at hstop

theorem replaceAll_cons_of_split (hearlier : ∀ substitution ∈ earlier, substitution.Before last)
    {front middle back : List Char} (hspan : last.span =
      ⟨Text.byteLength front, Text.byteLength front + Text.byteLength middle⟩) :
    replaceAll (last :: earlier) 0 (front ++ (middle ++ back)) =
      replaceAll earlier 0 front ++ (last.snippet.toList ++ back) := by
  rw [replaceAll_append hearlier (by rw [hspan, Nat.zero_add]),
    replaceAll_of_start hearlier (by rw [hspan])]

end Last

/-- Making substitutions from the last range to the first gives the text in which all are
made at once. They can be made if all ranges lie between characters of the source. -/
theorem makeAll?_eq_some_iff {substitutions : List Substitution}
    (hdescending : Descending substitutions) {cs fixed : List Char} :
    makeAll? substitutions cs = some fixed ↔
      (∀ substitution ∈ substitutions, substitution.span.Aligned cs) ∧
        fixed = replaceAll substitutions 0 cs := by
  induction substitutions generalizing cs fixed with
  | nil =>
      have hsame : replaceAll [] 0 cs = cs := replaceAll_of_behind (by simp) cs
      simp [hsame, eq_comm]
  | cons last earlier ih =>
      obtain ⟨hlast, hearlier⟩ := List.pairwise_cons.mp hdescending
      constructor
      · intro h
        obtain ⟨mid, hmid, -⟩ := Option.bind_eq_some_iff.mp h
        obtain ⟨front, middle, back, rfl, hspan, -⟩ := applyTo?_eq_some_iff.mp hmid
        rw [makeAll?_cons_of_split hdescending hspan, Option.map_eq_some_iff] at h
        obtain ⟨start, hstart, rfl⟩ := h
        obtain ⟨haligned, rfl⟩ := (ih hearlier).mp hstart
        refine ⟨?_, (replaceAll_cons_of_split hlast hspan).symm⟩
        intro substitution hmem
        rcases List.mem_cons.mp hmem with rfl | hmem
        · exact .of_split rfl hspan
        · exact (haligned substitution hmem).append_right _
      · rintro ⟨haligned, rfl⟩
        obtain ⟨front, middle, back, rfl, hspan⟩ := (haligned last mem_cons_self).exists_split
        have hfront : ∀ substitution ∈ earlier, substitution.span.Aligned front := by
          intro substitution hmem
          have hstop := (hlast substitution hmem).stop_le
          rw [hspan] at hstop
          exact (haligned substitution (mem_cons_of_mem _ hmem)).of_append hstop
        rw [makeAll?_cons_of_split hdescending hspan, (ih hearlier).mpr ⟨hfront, rfl⟩,
          replaceAll_cons_of_split hlast hspan, Option.map_some]

end Substitution

/-- A fix whose ranges are apart can be made exactly when each range lies between characters
of the source. It then replaces all of them at once, in whatever order they are listed. -/
theorem fix_replaces_at_once (fix : Fix) (source : String)
    (hapart : fix.substitutions.Pairwise Substitution.Apart) :
    ((fix.applyTo? source).isSome = true ↔
      ∀ substitution ∈ fix.substitutions, substitution.span.Aligned source.toList) ∧
    (∀ fixed, fix.applyTo? source = some fixed →
      fixed.toList = Substitution.replaceAll fix.substitutions 0 source.toList) ∧
    ∀ other : Fix, other.substitutions ~ fix.substitutions →
      other.applyTo? source = fix.applyTo? source := by
  have hmade : ∀ fixed, Substitution.makeAll? fix.ordered source.toList = some fixed ↔
      (∀ substitution ∈ fix.substitutions, substitution.span.Aligned source.toList) ∧
        fixed = Substitution.replaceAll fix.substitutions 0 source.toList := by
    intro fixed
    rw [Substitution.makeAll?_eq_some_iff (Fix.descending_ordered hapart),
      Substitution.replaceAll_perm hapart fix.ordered_perm]
    simp only [fix.ordered_perm.mem_iff]
  refine ⟨?_, ?_, ?_⟩
  · rw [Fix.applyTo?_eq_makeAll?, Option.isSome_map, Option.isSome_iff_exists]
    constructor
    · rintro ⟨fixed, hfixed⟩
      exact ((hmade fixed).mp hfixed).1
    · intro haligned
      exact ⟨_, (hmade _).mpr ⟨haligned, rfl⟩⟩
  · intro fixed hfixed
    rw [Fix.applyTo?_eq_makeAll?, Option.map_eq_some_iff] at hfixed
    obtain ⟨chars, hchars, rfl⟩ := hfixed
    rw [String.toList_ofList]
    exact ((hmade chars).mp hchars).2
  · intro other hperm
    -- Ranges that are apart have different starts, so they can be sorted in one way only.
    have hother : other.substitutions.Pairwise Substitution.Apart :=
      (hperm.pairwise_iff Substitution.Apart.symm).mpr hapart
    have hordered : other.ordered = fix.ordered := by
      refine List.Perm.eq_of_pairwise ?_ (Fix.descending_ordered hother)
        (Fix.descending_ordered hapart)
        ((other.ordered_perm.trans hperm).trans fix.ordered_perm.symm)
      intro a b _ _ hba hab
      exact absurd hba.start_lt (Nat.not_lt.mpr hab.start_lt.le)
    rw [Fix.applyTo?_eq_makeAll?, Fix.applyTo?_eq_makeAll?, hordered]

/-- Two specifiers are swapped and a mark goes between them, listed in no order at all. -/
theorem fix_replaces_at_once_swapped :
    ∃ fixed, Fix.applyTo? ⟨"swap", .tentative, [⟨⟨2, 4⟩, "%s"⟩, ⟨⟨5, 7⟩, "%d"⟩, ⟨.point 4, "|"⟩]⟩
        "é%d %s" = some fixed ∧ fixed.toList = "é%s| %d".toList := by
  obtain ⟨hmade, hreplaced, -⟩ := fix_replaces_at_once
    ⟨"swap", .tentative, [⟨⟨2, 4⟩, "%s"⟩, ⟨⟨5, 7⟩, "%d"⟩, ⟨.point 4, "|"⟩]⟩ "é%d %s" (by decide)
  obtain ⟨fixed, hfixed⟩ := Option.isSome_iff_exists.mp (hmade.mpr (by decide))
  exact ⟨fixed, hfixed, (hreplaced fixed hfixed).trans (by decide)⟩

end FormatCheck
