import FormatCheck.Call.Check
import FormatCheck.Proofs.Call.Reference
import FormatCheck.Proofs.Format.Canonical

/-! # Verdicts on calls

What is wrong with a call, read off the places of its specifiers, and the proof that
checking gives this verdict. -/

namespace FormatCheck

/-! ## Failures -/

/-- What is wrong with the specifier at a place, whatever happens at others. -/
inductive FailsAt (specifiers : List Specifier) (arguments : List Signature) (place : Nat) :
    Problem → Prop where
  | noPrevious {specifier : Specifier} (hreads : ReadsAt specifiers place specifier)
      (hindex : specifier.index = .relative) (hnone : NoneBefore specifiers place) :
      FailsAt specifiers arguments place (.missing .noPrevious)
  | outOfRange {position : UInt32} (hrefers : RefersTo specifiers place position.toNat)
      (hlt : arguments.length < position.toNat) :
      FailsAt specifiers arguments place (.missing (.outOfRange position arguments.length))
  | mismatch {specifier : Specifier} {position : UInt32} {offset : Nat} {argument : Signature}
      {family : Family} {reason : Mismatch} (hreads : ReadsAt specifiers place specifier)
      (hrefers : RefersTo specifiers place position.toNat)
      (hoffset : position.toNat = offset + 1) (hargument : arguments[offset]? = some argument)
      (hfamily : specifier.conversion.family? = some family)
      (hrejects : argument.mismatch? family = some reason) :
      FailsAt specifiers arguments place (.mismatch specifier position family argument reason)

/-- No specifier before a place fails. -/
def PassesBefore (specifiers : List Specifier) (arguments : List Signature) (place : Nat) : Prop :=
  ∀ earlier < place, ∀ problem, ¬FailsAt specifiers arguments earlier problem

/-- No specifier fails. -/
def Passes (specifiers : List Specifier) (arguments : List Signature) : Prop :=
  ∀ place problem, ¬FailsAt specifiers arguments place problem

/-- The problem of the first specifier that fails, at its range. -/
def FirstFailure (specifiers : List (Located Specifier)) (arguments : List Signature)
    (problem : Located Problem) : Prop :=
  ∃ place specifier, specifiers[place]? = some ⟨specifier, problem.span⟩ ∧
    FailsAt (specifiers.map Located.value) arguments place problem.value ∧
    PassesBefore (specifiers.map Located.value) arguments place

/-- The result of a call. The rules do not follow the specifiers. -/
inductive Verdict (format : String) (arguments : List Signature) :
    Except (Located Problem) Unit → Prop where
  | malformed {fault : Located Fault} (hparse : parse format = .error fault) :
      Verdict format arguments (.error (fault.map .malformed))
  | failed {segments : List (Located Segment)} {problem : Located Problem}
      (hparse : parse format = .ok segments)
      (hfirst : FirstFailure (Segment.specifiers segments) arguments problem) :
      Verdict format arguments (.error problem)
  | extra {segments : List (Located Segment)} {referenced : UInt32}
      (hparse : parse format = .ok segments) (hpasses : Passes (Segment.values segments) arguments)
      (hhighest : HighestBefore (Segment.values segments) (Segment.values segments).length
        referenced.toNat)
      (hlt : referenced.toNat < arguments.length) :
      Verdict format arguments (.error ⟨.extra arguments.length referenced, .whole format⟩)
  | passed {segments : List (Located Segment)} {highest : Nat}
      (hparse : parse format = .ok segments) (hpasses : Passes (Segment.values segments) arguments)
      (hhighest : HighestBefore (Segment.values segments) (Segment.values segments).length highest)
      (hle : arguments.length ≤ highest) :
      Verdict format arguments (.ok ())

/-! ## One problem at each place -/

theorem ReadsAt.exists_nearest {specifiers : List Specifier} {place position : Nat}
    {specifier : Specifier} (hreads : ReadsAt specifiers place specifier)
    (hindex : specifier.index = .relative) (h : RefersTo specifiers place position) :
    ∃ earlier, NearestBefore specifiers earlier place := by
  cases h with
  | explicit hreads' hindex' | implicit hreads' hindex' =>
      cases hreads.unique hreads'
      rw [hindex] at hindex'
      cases hindex'
  | relative _ _ hnearest _ => exact ⟨_, hnearest⟩

theorem NoneBefore.not_refersTo {specifiers : List Specifier} {place position : Nat}
    {specifier : Specifier} (hnone : NoneBefore specifiers place)
    (hreads : ReadsAt specifiers place specifier) (hindex : specifier.index = .relative) :
    ¬RefersTo specifiers place position := by
  intro h
  obtain ⟨earlier, hnearest⟩ := hreads.exists_nearest hindex h
  obtain ⟨other, hother⟩ := hnearest.reads
  exact hnone earlier hnearest.lt other hother

theorem FailsAt.unique {specifiers : List Specifier} {arguments : List Signature} {place : Nat}
    {problem other : Problem} (h : FailsAt specifiers arguments place problem)
    (hother : FailsAt specifiers arguments place other) : problem = other := by
  cases h with
  | noPrevious hreads hindex hnone =>
      cases hother with
      | noPrevious _ _ _ => rfl
      | outOfRange hrefers _ | mismatch _ hrefers _ _ _ _ =>
          exact absurd hrefers (hnone.not_refersTo hreads hindex)
  | outOfRange hrefers hlt =>
      cases hother with
      | noPrevious hreads hindex hnone =>
          exact absurd hrefers (hnone.not_refersTo hreads hindex)
      | outOfRange hrefers' _ => rw [UInt32.toNat_inj.mp (hrefers.unique hrefers')]
      | mismatch _ hrefers' hoffset hargument _ _ =>
          have hinside := (List.getElem?_eq_some_iff.mp hargument).1
          have hposition := hrefers.unique hrefers'
          omega
  | mismatch hreads hrefers hoffset hargument hfamily hrejects =>
      cases hother with
      | noPrevious hreads hindex hnone =>
          exact absurd hrefers (hnone.not_refersTo hreads hindex)
      | outOfRange hrefers' hlt =>
          have hinside := (List.getElem?_eq_some_iff.mp hargument).1
          have hposition := hrefers.unique hrefers'
          omega
      | mismatch hreads' hrefers' hoffset' hargument' hfamily' hrejects' =>
          cases hreads.unique hreads'
          cases UInt32.toNat_inj.mp (hrefers.unique hrefers')
          obtain rfl : _ = _ := Nat.succ.inj (hoffset.symm.trans hoffset')
          cases Option.some.inj (hargument.symm.trans hargument')
          cases Option.some.inj (hfamily.symm.trans hfamily')
          cases Option.some.inj (hrejects.symm.trans hrejects')
          rfl

theorem FailsAt.exists_reads {specifiers : List Specifier} {arguments : List Signature}
    {place : Nat} {problem : Problem} (h : FailsAt specifiers arguments place problem) :
    ∃ specifier, ReadsAt specifiers place specifier := by
  cases h with
  | noPrevious hreads _ _ => exact ⟨_, hreads⟩
  | outOfRange hrefers _ => exact hrefers.exists_reads
  | mismatch hreads _ _ _ _ _ => exact ⟨_, hreads⟩

/-- A specifier fails alike among others that name their arguments alike. -/
theorem FailsAt.of_sameReferences {specifiers others : List Specifier}
    {arguments : List Signature} {place : Nat} {problem : Problem}
    (h : FailsAt specifiers arguments place problem) (hsame : SameReferences specifiers others)
    (hplace : others[place]? = specifiers[place]?) :
    FailsAt others arguments place problem := by
  cases h with
  | noPrevious hreads hindex hnone =>
      have hreads' : ReadsAt others place _ := ⟨hplace.trans hreads.at_place, hreads.reads⟩
      exact .noPrevious hreads' hindex (hsame.noneBefore hnone)
  | outOfRange hrefers hlt => exact .outOfRange (hsame.refersTo hrefers) hlt
  | mismatch hreads hrefers hoffset hargument hfamily hrejects =>
      have hreads' : ReadsAt others place _ := ⟨hplace.trans hreads.at_place, hreads.reads⟩
      exact .mismatch hreads' (hsame.refersTo hrefers) hoffset hargument hfamily hrejects

theorem PassesBefore.succ {specifiers : List Specifier} {arguments : List Signature}
    {place : Nat} (h : PassesBefore specifiers arguments place)
    (hplace : ∀ problem, ¬FailsAt specifiers arguments place problem) :
    PassesBefore specifiers arguments (place + 1) := by
  intro earlier hlt
  rcases Nat.lt_succ_iff_lt_or_eq.mp hlt with hlt | rfl
  · exact h earlier hlt
  · exact hplace

theorem PassesBefore.passes {specifiers : List Specifier} {arguments : List Signature}
    (h : PassesBefore specifiers arguments specifiers.length) : Passes specifiers arguments := by
  intro place problem hfails
  obtain ⟨specifier, hreads⟩ := hfails.exists_reads
  exact h place (List.getElem?_eq_some_iff.mp hreads.at_place).1 problem hfails

theorem FirstFailure.not_passes {specifiers : List (Located Specifier)}
    {arguments : List Signature} {problem : Located Problem}
    (h : FirstFailure specifiers arguments problem) :
    ¬Passes (specifiers.map Located.value) arguments := by
  intro hpasses
  obtain ⟨place, specifier, -, hfails, -⟩ := h
  exact hpasses place problem.value hfails

theorem FirstFailure.unique {specifiers : List (Located Specifier)} {arguments : List Signature}
    {problem other : Located Problem} (h : FirstFailure specifiers arguments problem)
    (hother : FirstFailure specifiers arguments other) : problem = other := by
  obtain ⟨place, specifier, hat, hfails, hfirst⟩ := h
  obtain ⟨place', specifier', hat', hfails', hfirst'⟩ := hother
  rcases Nat.lt_trichotomy place place' with hlt | rfl | hgt
  · exact absurd hfails (hfirst' place hlt problem.value)
  · have hlocated := Option.some.inj (hat.symm.trans hat')
    have hvalue := hfails.unique hfails'
    obtain ⟨value, span⟩ := problem
    obtain ⟨value', span'⟩ := other
    obtain ⟨-, rfl⟩ := Located.mk.inj hlocated
    obtain rfl : value = value' := hvalue
    rfl
  · exact absurd hfails' (hfirst place' hgt other.value)

/-! ## Following the specifiers -/

theorem ReadsAt.exists_family {specifiers : List Specifier} {place : Nat} {specifier : Specifier}
    (h : ReadsAt specifiers place specifier) :
    ∃ family, specifier.conversion.family? = some family :=
  Conversion.exists_family h.reads

/-- What is found wrong with the argument at a position is wrong by the rules. -/
theorem failsAt_of_problem? {specifiers : List Specifier} {arguments : List Signature}
    {place : Nat} {specifier : Specifier} {position : UInt32} {problem : Problem}
    (hreads : ReadsAt specifiers place specifier)
    (hrefers : RefersTo specifiers place position.toNat) (hpos : 0 < position.toNat)
    (h : specifier.problem? position arguments = some problem) :
    FailsAt specifiers arguments place problem := by
  obtain ⟨family, hfamily⟩ := hreads.exists_family
  cases hargument : arguments[position.toNat - 1]? with
  | none =>
      simp only [Specifier.problem?, hfamily, hargument, Option.some.injEq] at h
      subst h
      refine .outOfRange hrefers ?_
      have hle := List.getElem?_eq_none_iff.mp hargument
      omega
  | some argument =>
      simp only [Specifier.problem?, hfamily, hargument, Option.map_eq_some_iff] at h
      obtain ⟨reason, hrejects, rfl⟩ := h
      exact .mismatch hreads hrefers (by omega) hargument hfamily hrejects

/-- What is wrong by the rules is found. -/
theorem FailsAt.problem?_eq {specifiers : List Specifier} {arguments : List Signature}
    {place : Nat} {specifier : Specifier} {position : UInt32} {problem : Problem}
    (h : FailsAt specifiers arguments place problem)
    (hreads : ReadsAt specifiers place specifier)
    (hrefers : RefersTo specifiers place position.toNat) :
    specifier.problem? position arguments = some problem := by
  cases h with
  | noPrevious hreads' hindex hnone =>
      exact absurd hrefers (hnone.not_refersTo hreads' hindex)
  | outOfRange hrefers' hlt =>
      cases UInt32.toNat_inj.mp (hrefers.unique hrefers')
      obtain ⟨family, hfamily⟩ := hreads.exists_family
      have hnone : arguments[position.toNat - 1]? = none :=
        List.getElem?_eq_none (by omega)
      simp [Specifier.problem?, hfamily, hnone]
  | mismatch hreads' hrefers' hoffset hargument hfamily hrejects =>
      cases hreads.unique hreads'
      cases UInt32.toNat_inj.mp (hrefers.unique hrefers')
      simp [Specifier.problem?, hfamily, hoffset, hargument, hrejects]

/-- A whole run: the specifiers from a place on are followed up to the first failure,
or to a tracker that knows all of them. -/
theorem Tracked.follow {specifiers rest : List (Located Specifier)} {place : Nat}
    {tracker : Tracker} (h : Tracked (specifiers.map Located.value) place tracker)
    (arguments : List Signature)
    (hrest : specifiers.drop place = rest) (hplace : place ≤ specifiers.length)
    (hlength : specifiers.length < UInt32.size)
    (hzero : ∀ specifier ∈ specifiers.map Located.value, specifier.index ≠ .explicit 0)
    (hpassed : PassesBefore (specifiers.map Located.value) arguments place) :
    (∃ problem, tracker.follow arguments rest = .error problem ∧
      FirstFailure specifiers arguments problem) ∨
    ∃ after, tracker.follow arguments rest = .ok after ∧
      Passes (specifiers.map Located.value) arguments ∧
      Tracked (specifiers.map Located.value) specifiers.length after := by
  induction rest generalizing place tracker with
  | nil =>
      obtain rfl : place = specifiers.length := by
        have hle := List.drop_eq_nil_iff.mp hrest
        omega
      exact .inr ⟨tracker, rfl, PassesBefore.passes (by rwa [List.length_map]), h⟩
  | cons located rest ih =>
      have hat : specifiers[place]? = some located := by
        rw [← List.head?_drop, hrest, List.head?_cons]
      have hvalue : (specifiers.map Located.value)[place]? = some located.value := by
        rw [List.getElem?_map, hat, Option.map_some]
      have hlt : place < specifiers.length := (List.getElem?_eq_some_iff.mp hat).1
      have hdrop : specifiers.drop (place + 1) = rest := by
        rw [← List.tail_drop, hrest, List.tail_cons]
      have hfollowed := h.resolve hvalue (by rwa [List.length_map])
      rw [Tracker.follow]
      cases hresult : tracker.resolve located.value with
      | error reason =>
          rw [hresult] at hfollowed
          cases hfollowed with
          | noPrevious hreads hindex hnone =>
              refine .inl ⟨_, rfl, place, located.value, hat, ?_, hpassed⟩
              exact .noPrevious hreads hindex hnone
      | ok result =>
          rw [hresult] at hfollowed
          cases hfollowed with
          | skipped hreads htracked =>
              refine ih htracked hdrop hlt (hpassed.succ ?_)
              intro problem hfails
              obtain ⟨specifier, hat'⟩ := hfails.exists_reads
              obtain rfl : located.value = specifier :=
                Option.some.inj (hvalue.symm.trans hat'.at_place)
              simp [hat'.reads] at hreads
          | @read position after hreads hrefers htracked =>
              cases hproblem : located.value.problem? position arguments with
              | some problem =>
                  simp only [hproblem]
                  refine .inl ⟨_, rfl, place, located.value, hat, ?_, hpassed⟩
                  exact failsAt_of_problem? hreads hrefers (hrefers.pos hzero) hproblem
              | none =>
                  simp only [hproblem]
                  refine ih htracked hdrop hlt (hpassed.succ ?_)
                  intro problem hfails
                  rw [hfails.problem?_eq hreads hrefers] at hproblem
                  cases hproblem

/-! ## Checking -/

/-- The specifiers of a format text can be counted in 32 bits. -/
def CountFits (format : String) : Prop :=
  ∀ segments, parse format = .ok segments → (Segment.specifiers segments).length < UInt32.size

theorem countFits_of_byteLength_lt {format : String}
    (h : Text.byteLength format.toList < UInt32.size) : CountFits format := by
  intro segments hparse
  have hsegments := length_le_of_parse hparse
  have hspecifiers : (Segment.specifiers segments).length ≤ segments.length :=
    List.length_filterMap_le _ _
  omega

/-- The specifiers of a format text are followed up to the first failure, or to a
tracker that knows the highest position. -/
theorem follow_start {format : String} {segments : List (Located Segment)}
    (arguments : List Signature) (hformat : CountFits format) (h : parse format = .ok segments) :
    (∃ problem,
      Tracker.start.follow arguments (Segment.specifiers segments) = .error problem ∧
      FirstFailure (Segment.specifiers segments) arguments problem) ∨
    ∃ tracker, Tracker.start.follow arguments (Segment.specifiers segments) = .ok tracker ∧
      Passes (Segment.values segments) arguments ∧
      HighestBefore (Segment.values segments) (Segment.values segments).length
        tracker.maxReferenced.toNat := by
  have hzero : ∀ specifier ∈ Segment.values segments, specifier.index ≠ .explicit 0 := by
    intro specifier hmem
    exact (writable_of_parse h hmem).index_ne_zero
  rcases (tracked_start _).follow arguments List.drop_zero (Nat.zero_le _)
    (hformat segments h) hzero (fun _ hlt => by omega) with
    hfailed | ⟨tracker, hfollow, hpasses, htracked⟩
  · exact .inl hfailed
  · refine .inr ⟨tracker, hfollow, hpasses, ?_⟩
    rw [Segment.values, List.length_map]
    exact htracked.maxReferenced

theorem Verdict.check_eq {format : String} {arguments : List Signature}
    {result : Except (Located Problem) Unit} (hformat : CountFits format)
    (h : Verdict format arguments result) : check format arguments = result := by
  cases h with
  | malformed hparse => rw [check, hparse]
  | failed hparse hfirst =>
      rcases follow_start arguments hformat hparse with
        ⟨problem, hfollow, hfailure⟩ | ⟨tracker, -, hpasses, -⟩
      · rw [check, hparse]
        simp only [hfollow, hfailure.unique hfirst]
      · exact absurd hpasses hfirst.not_passes
  | extra hparse hpasses hhighest hlt =>
      rcases follow_start arguments hformat hparse with
        ⟨problem, -, hfailure⟩ | ⟨tracker, hfollow, -, hknown⟩
      · exact absurd hpasses hfailure.not_passes
      · rw [check, hparse]
        obtain rfl := UInt32.toNat_inj.mp (hknown.unique hhighest)
        simp only [hfollow, if_pos hlt]
  | passed hparse hpasses hhighest hle =>
      rcases follow_start arguments hformat hparse with
        ⟨problem, -, hfailure⟩ | ⟨tracker, hfollow, -, hknown⟩
      · exact absurd hpasses hfailure.not_passes
      · rw [check, hparse]
        have hequal := hknown.unique hhighest
        simp only [hfollow, if_neg (show ¬tracker.maxReferenced.toNat < arguments.length by omega)]

theorem verdict_check {format : String} (arguments : List Signature)
    (hformat : CountFits format) :
    Verdict format arguments (check format arguments) := by
  cases hparse : parse format with
  | error fault =>
      rw [check, hparse]
      exact .malformed hparse
  | ok segments =>
      rw [check, hparse]
      rcases follow_start arguments hformat hparse with
        ⟨problem, hfollow, hfailure⟩ | ⟨tracker, hfollow, hpasses, hknown⟩
      · simp only [hfollow]
        exact .failed hparse hfailure
      · simp only [hfollow]
        by_cases hlt : tracker.maxReferenced.toNat < arguments.length
        · rw [if_pos hlt]
          exact .extra hparse hpasses hknown hlt
        · rw [if_neg hlt]
          exact .passed hparse hpasses hknown (Nat.le_of_not_lt hlt)

/-- A specifier that is found to reject its argument is the first to fail. -/
theorem exists_place_of_mismatch {format : String} {arguments : List Signature}
    {specifier : Specifier} {position : UInt32} {expected : Family} {actual : Signature}
    {reason : Mismatch} {span : Span} (hformat : CountFits format)
    (h : check format arguments =
      .error ⟨.mismatch specifier position expected actual reason, span⟩) :
    ∃ segments place, parse format = .ok segments ∧
      (Segment.specifiers segments)[place]? = some ⟨specifier, span⟩ ∧
      FailsAt (Segment.values segments) arguments place
        (.mismatch specifier position expected actual reason) ∧
      PassesBefore (Segment.values segments) arguments place := by
  have hverdict := verdict_check arguments hformat
  generalize check format arguments = result at h hverdict
  cases hverdict with
  | malformed _ | extra _ _ _ _ | passed _ _ _ _ => cases h
  | @failed segments _ hparse hfirst =>
      cases h
      obtain ⟨place, found, hat, hfails, hpassed⟩ := hfirst
      have hvalue := Segment.getElem?_values hat
      have hfound : found = specifier := by
        cases hfails with
        | mismatch hreads _ _ _ _ _ => exact Option.some.inj (hvalue.symm.trans hreads.at_place)
      subst hfound
      exact ⟨segments, place, hparse, hat, hfails, hpassed⟩

/-- Checking gives the verdict of the rules: a fault of the text, else the first
failure, else the arguments left over, else success. -/
theorem check_eq_iff_verdict (format : String) (arguments : List Signature)
    (hformat : Text.byteLength format.toList < UInt32.size)
    (result : Except (Located Problem) Unit) :
    check format arguments = result ↔ Verdict format arguments result := by
  constructor
  · intro h
    rw [← h]
    exact verdict_check arguments (countFits_of_byteLength_lt hformat)
  · intro h
    exact h.check_eq (countFits_of_byteLength_lt hformat)

/-- The relative specifier is the first to fail, at the position named before it. -/
theorem check_eq_iff_verdict_relative :
    Verdict "%2$s%n%<d%s%5$x" [⟨"I"⟩, ⟨"Ljava/lang/String;"⟩]
      (.error ⟨.mismatch ⟨.relative, .empty, none, none, .decimal, false⟩ 2 .integral
        ⟨"Ljava/lang/String;"⟩ .incompatible, 6, 9⟩) :=
  (check_eq_iff_verdict _ _ (by decide) _).mp (by decide +kernel)

end FormatCheck
