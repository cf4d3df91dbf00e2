import FormatCheck.Proofs.Call.Rewording

/-! # The number of arguments

A call that passes has as many arguments as the highest position that a specifier resolves
to. With more arguments some are left over; with fewer, the first specifier that resolves
past the last of them fails. -/

namespace FormatCheck

/-! ## One specifier -/

namespace Specifier

variable {specifier : Specifier} {position : UInt32} {arguments : List Signature}

/-- A specifier that reads an argument finds nothing wrong with one that is there and that its
family accepts. -/
theorem problem?_eq_none_iff (hreads : specifier.readsArgument = true) :
    specifier.problem? position arguments = none ↔
      ∃ family argument, specifier.conversion.family? = some family ∧
        arguments[position.toNat - 1]? = some argument ∧ argument.mismatch? family = none := by
  obtain ⟨family, hfamily⟩ := Conversion.exists_family hreads
  cases hargument : arguments[position.toNat - 1]? with
  | none => simp [problem?, hfamily, hargument]
  | some argument => simp [problem?, hfamily, hargument]

theorem toNat_le_length (hreads : specifier.readsArgument = true)
    (h : specifier.problem? position arguments = none) : position.toNat ≤ arguments.length := by
  obtain ⟨_, _, -, hargument, -⟩ := (problem?_eq_none_iff hreads).mp h
  have hlt := (List.getElem?_eq_some_iff.mp hargument).1
  omega

theorem problem?_append (hreads : specifier.readsArgument = true)
    (h : specifier.problem? position arguments = none) (extra : List Signature) :
    specifier.problem? position (arguments ++ extra) = none := by
  obtain ⟨family, argument, hfamily, hargument, haccepts⟩ := (problem?_eq_none_iff hreads).mp h
  have hlt := (List.getElem?_eq_some_iff.mp hargument).1
  refine (problem?_eq_none_iff hreads).mpr ⟨family, argument, hfamily, ?_, haccepts⟩
  rw [List.getElem?_append_left hlt, hargument]

theorem problem?_take_of_le {count : Nat} (hreads : specifier.readsArgument = true)
    (h : specifier.problem? position arguments = none) (hne : position ≠ 0)
    (hle : position.toNat ≤ count) : specifier.problem? position (arguments.take count) = none := by
  obtain ⟨family, argument, hfamily, hargument, haccepts⟩ := (problem?_eq_none_iff hreads).mp h
  have hpos : position.toNat ≠ 0 := fun hzero => hne (UInt32.toNat_inj.mp hzero)
  refine (problem?_eq_none_iff hreads).mpr ⟨family, argument, hfamily, ?_, haccepts⟩
  rw [List.getElem?_take_of_lt (by omega), hargument]

/-- Behind the last argument there is none. -/
theorem problem?_of_lt (hreads : specifier.readsArgument = true)
    (hlt : arguments.length < position.toNat) :
    specifier.problem? position arguments =
      some (.missing (.outOfRange position arguments.length)) := by
  obtain ⟨family, hfamily⟩ := Conversion.exists_family hreads
  have hargument : arguments[position.toNat - 1]? = none := List.getElem?_eq_none (by omega)
  simp [problem?, hfamily, hargument]

end Specifier

/-! ## Following specifiers -/

namespace Tracker

variable {tracker after last : Tracker} {specifier : Located Specifier}
  {rest specifiers : List (Located Specifier)} {position? : Option UInt32}
  {arguments : List Signature}

/-- A specifier is followed to the end if it resolves, reads an argument that it accepts, if
any, and those behind it are followed to the end. -/
theorem follow_cons_eq_ok_iff :
    tracker.follow arguments (specifier :: rest) = .ok last ↔
      ∃ position? after, tracker.resolve specifier.value = .ok (position?, after) ∧
        specifier.value.failure? position? arguments = none ∧
        after.follow arguments rest = .ok last := by
  cases hresolve : tracker.resolve specifier.value with
  | error reason => simp [follow, hresolve]
  | ok result =>
      obtain ⟨position?, after⟩ := result
      rw [follow_cons_of_ok hresolve]
      cases hfailure : specifier.value.failure? position? arguments with
      | none => simp [hfailure]
      | some problem => simp [hfailure]

/-- The highest position stays within a bound that no position goes beyond. -/
theorem maxReferenced_le_of_resolve {bound : Nat}
    (h : tracker.resolve specifier.value = .ok (position?, after))
    (hmax : tracker.maxReferenced.toNat ≤ bound)
    (hposition : ∀ position, position? = some position → position.toNat ≤ bound) :
    after.maxReferenced.toNat ≤ bound := by
  cases position? with
  | none =>
      obtain ⟨-, rfl⟩ := skips_of_resolve h
      exact hmax
  | some position =>
      rw [(readsPosition_of_resolve h).maxReferenced, UInt32.toNat_max]
      exact Nat.max_le.mpr ⟨hmax, hposition position rfl⟩

/-- Following to the end comes to what is known after the run. -/
theorem known_of_follow (h : tracker.follow arguments specifiers = .ok last) :
    tracker.known specifiers = last := by
  induction specifiers generalizing tracker with
  | nil => exact Except.ok.inj h
  | cons specifier rest ih =>
      obtain ⟨position?, after, hresolve, -, hrest⟩ := follow_cons_eq_ok_iff.mp h
      rw [known_cons, resolution_of_ok hresolve]
      exact ih hrest

/-- No position goes beyond the arguments. -/
theorem maxReferenced_le_of_follow (h : tracker.follow arguments specifiers = .ok last)
    (hmax : tracker.maxReferenced.toNat ≤ arguments.length) :
    last.maxReferenced.toNat ≤ arguments.length := by
  induction specifiers generalizing tracker with
  | nil =>
      obtain rfl := Except.ok.inj h
      exact hmax
  | cons specifier rest ih =>
      obtain ⟨position?, after, hresolve, hfailure, hrest⟩ := follow_cons_eq_ok_iff.mp h
      apply ih hrest
      apply maxReferenced_le_of_resolve hresolve hmax
      rintro position rfl
      exact Specifier.toNat_le_length (readsPosition_of_resolve hresolve).readsArgument hfailure

/-- More arguments change nothing for specifiers that are followed to the end. -/
theorem follow_of_append (h : tracker.follow arguments specifiers = .ok last)
    (extra : List Signature) : tracker.follow (arguments ++ extra) specifiers = .ok last := by
  induction specifiers generalizing tracker with
  | nil => exact h
  | cons specifier rest ih =>
      obtain ⟨position?, after, hresolve, hfailure, hrest⟩ := follow_cons_eq_ok_iff.mp h
      refine follow_cons_eq_ok_iff.mpr ⟨position?, after, hresolve, ?_, ih hrest⟩
      cases position? with
      | none => rfl
      | some position =>
          have hreads := (readsPosition_of_resolve hresolve).readsArgument
          exact Specifier.problem?_append hreads hfailure extra

/-! ## Fewer arguments -/

/-- After a run in which every position is among the first `count`, a specifier resolves to a
position past them. -/
structure Overruns (tracker : Tracker) (count : Nat) (before : List (Located Specifier))
    (specifier : Located Specifier) (position : UInt32) : Prop where
  inside : ∀ earlier ∈ (tracker.run before).filterMap Resolution.position?, earlier.toNat ≤ count
  resolves : ((tracker.known before).resolution specifier).result = .ok (some position)
  past : count < position.toNat

theorem Overruns.here {count : Nat} {position : UInt32}
    (h : tracker.resolve specifier.value = .ok (some position, after))
    (hlt : count < position.toNat) : tracker.Overruns count [] specifier position where
  inside := by simp [run]
  resolves := by
    change (tracker.resolution specifier).result = _
    rw [resolution_of_ok h]
  past := hlt

theorem Overruns.later {count : Nat} {position : UInt32} {first : Located Specifier}
    {before : List (Located Specifier)} (h : after.Overruns count before specifier position)
    (hresolve : tracker.resolve first.value = .ok (position?, after))
    (hinside : ∀ earlier, position? = some earlier → earlier.toNat ≤ count) :
    tracker.Overruns count (first :: before) specifier position where
  inside := by
    intro earlier hmem
    rw [run, resolution_of_ok hresolve, List.filterMap_cons] at hmem
    cases position? with
    | none => exact h.inside earlier hmem
    | some found =>
        rcases List.mem_cons.mp hmem with rfl | hmem
        · exact hinside earlier rfl
        · exact h.inside earlier hmem
  resolves := by rw [known_cons, resolution_of_ok hresolve, h.resolves]
  past := h.past

/-- With fewer arguments the first specifier that resolves past them fails, and none before
it does. -/
theorem exists_overruns {count : Nat} (h : tracker.follow arguments specifiers = .ok last)
    (hcount : count < arguments.length) (hmax : tracker.maxReferenced.toNat ≤ count)
    (hlast : count < last.maxReferenced.toNat) (hused : tracker.lastUsed ≠ some 0)
    (hindex : ∀ other ∈ specifiers.map Located.value, other.index ≠ .explicit 0) :
    ∃ before specifier behind position, specifiers = before ++ specifier :: behind ∧
      tracker.Overruns count before specifier position ∧
      tracker.follow (arguments.take count) specifiers =
        .error ⟨.missing (.outOfRange position count), specifier.span⟩ := by
  induction specifiers generalizing tracker with
  | nil =>
      obtain rfl := Except.ok.inj h
      omega
  | cons first rest ih =>
      obtain ⟨hfirst, hothers⟩ := List.forall_mem_cons.mp hindex
      obtain ⟨position?, after, hresolve, hfailure, hrest⟩ := follow_cons_eq_ok_iff.mp h
      by_cases hinside : ∀ position, position? = some position → position.toNat ≤ count
      · have hused' : after.lastUsed ≠ some 0 := by
          rw [← advance_of_ok hresolve]
          exact lastUsed_advance hused hfirst
        have hmax' := maxReferenced_le_of_resolve hresolve hmax hinside
        have hpasses : first.value.failure? position? (arguments.take count) = none := by
          cases position? with
          | none => rfl
          | some position =>
              have hposition := readsPosition_of_resolve hresolve
              exact Specifier.problem?_take_of_le hposition.readsArgument hfailure
                (hposition.position_ne_zero hused hfirst) (hinside position rfl)
        obtain ⟨before, specifier, behind, position, rfl, hoverruns, hfollow⟩ :=
          ih hrest hmax' hused' hothers
        refine ⟨first :: before, specifier, behind, position, rfl,
          hoverruns.later hresolve hinside, ?_⟩
        rw [follow_cons_of_ok hresolve, hpasses]
        exact hfollow
      · -- This is the specifier: it resolves past the arguments that are left.
        simp only [not_forall, Nat.not_le, exists_prop] at hinside
        obtain ⟨position, rfl, hlt⟩ := hinside
        have hlength : (arguments.take count).length = count :=
          List.length_take_of_le (Nat.le_of_lt hcount)
        have hproblem : first.value.failure? (some position) (arguments.take count) =
            some (.missing (.outOfRange position count)) := by
          have hreads := (readsPosition_of_resolve hresolve).readsArgument
          rw [Specifier.failure?, Option.bind_some, Specifier.problem?_of_lt hreads (by omega),
            hlength]
        refine ⟨[], first, rest, position, rfl, .here hresolve hlt, ?_⟩
        rw [follow_cons_of_ok hresolve, hproblem]

end Tracker

/-! ## Calls that pass -/

/-- What the number of arguments means for a call that passes. -/
structure Arity (format : String) (segments : List (Located Segment))
    (arguments : List Signature) : Prop where
  parsed : parse format = .ok segments
  length_eq : arguments.length =
    ((resolvedPositions (Segment.specifiers segments)).max?.getD 0).toNat
  more : ∀ extra, extra ≠ [] → ∃ referenced : UInt32, referenced.toNat = arguments.length ∧
    check format (arguments ++ extra) =
      .error ⟨.extra (arguments.length + extra.length) referenced, .whole format⟩
  fewer : ∀ count < arguments.length, ∃ before specifier behind position,
    Segment.specifiers segments = before ++ specifier :: behind ∧
      Tracker.start.Overruns count before specifier position ∧
      check format (arguments.take count) =
        .error ⟨.missing (.outOfRange position count), specifier.span⟩
  only : ∀ others, check format others = .ok () → others.length = arguments.length

/-- A call passes if its specifiers are followed to the end and the highest position is that
of the last argument. -/
theorem check_eq_ok_iff {format : String} {arguments : List Signature} :
    check format arguments = .ok () ↔ ∃ segments last, parse format = .ok segments ∧
      Tracker.start.follow arguments (Segment.specifiers segments) = .ok last ∧
      last.maxReferenced.toNat = arguments.length := by
  cases hparse : parse format with
  | error fault => simp [check, hparse]
  | ok segments =>
      cases hfollow : Tracker.start.follow arguments (Segment.specifiers segments) with
      | error problem => simp [check, hparse, hfollow]
      | ok last =>
          have hle := Tracker.maxReferenced_le_of_follow hfollow (Nat.zero_le _)
          by_cases hlt : last.maxReferenced.toNat < arguments.length
          · simp [check, hparse, hfollow, hlt, Nat.ne_of_lt hlt]
          · have hlength : last.maxReferenced.toNat = arguments.length := by omega
            simp [check, hparse, hfollow, hlength]

section

variable {format : String} {segments : List (Located Segment)} {arguments : List Signature}
  {last : Tracker}

theorem maxReferenced_of_follow
    (h : Tracker.start.follow arguments (Segment.specifiers segments) = .ok last) :
    last.maxReferenced = (resolvedPositions (Segment.specifiers segments)).max?.getD 0 := by
  rw [← Tracker.known_of_follow h]
  exact (knows_known _).maxReferenced

theorem length_eq_of_check (hparse : parse format = .ok segments)
    (h : check format arguments = .ok ()) :
    arguments.length = ((resolvedPositions (Segment.specifiers segments)).max?.getD 0).toNat := by
  obtain ⟨segments', last, hparse', hfollow, hlength⟩ := check_eq_ok_iff.mp h
  obtain rfl := Except.ok.inj (hparse.symm.trans hparse')
  rw [← maxReferenced_of_follow hfollow, hlength]

/-- Arguments behind the highest position are left over. -/
theorem check_append_of_follow (hparse : parse format = .ok segments)
    (h : Tracker.start.follow arguments (Segment.specifiers segments) = .ok last)
    (hlength : last.maxReferenced.toNat = arguments.length) {extra : List Signature}
    (hextra : extra ≠ []) :
    check format (arguments ++ extra) =
      .error ⟨.extra (arguments.length + extra.length) last.maxReferenced, .whole format⟩ := by
  have hlt : last.maxReferenced.toNat < arguments.length + extra.length := by
    have hpos := List.length_pos_iff.mpr hextra
    omega
  rw [check, hparse]
  simp only [Tracker.follow_of_append h extra, List.length_append, if_pos hlt]

/-- Without the last arguments a specifier has none to read. -/
theorem exists_check_take_of_follow (hparse : parse format = .ok segments)
    (h : Tracker.start.follow arguments (Segment.specifiers segments) = .ok last)
    (hlength : last.maxReferenced.toNat = arguments.length) {count : Nat}
    (hcount : count < arguments.length) :
    ∃ before specifier behind position,
      Segment.specifiers segments = before ++ specifier :: behind ∧
        Tracker.start.Overruns count before specifier position ∧
        check format (arguments.take count) =
          .error ⟨.missing (.outOfRange position count), specifier.span⟩ := by
  have hindex : ∀ other ∈ Segment.values segments, other.index ≠ .explicit 0 := by
    intro other hmem
    exact (writable_of_parse hparse hmem).index_ne_zero
  obtain ⟨before, specifier, behind, position, hsplit, hoverruns, hfollow⟩ :=
    Tracker.exists_overruns h hcount (Nat.zero_le _) (by omega) (by decide) hindex
  refine ⟨before, specifier, behind, position, hsplit, hoverruns, ?_⟩
  rw [check, hparse]
  simp only [hfollow]

end

/-- A call that passes has exactly the right number of arguments: as many as the highest
position, and neither more nor fewer would do. -/
theorem arity_of_check (format : String) (arguments : List Signature)
    (h : check format arguments = .ok ()) : ∃ segments, Arity format segments arguments := by
  obtain ⟨segments, last, hparse, hfollow, hlength⟩ := check_eq_ok_iff.mp h
  refine ⟨segments, hparse, length_eq_of_check hparse h, ?_, ?_, ?_⟩
  · intro extra hextra
    exact ⟨last.maxReferenced, hlength, check_append_of_follow hparse hfollow hlength hextra⟩
  · intro count hcount
    exact exists_check_take_of_follow hparse hfollow hlength hcount
  · intro others hothers
    rw [length_eq_of_check hparse hothers, length_eq_of_check hparse h]

/-- The second argument is in a gap: no specifier reads it, but it has to be there. -/
theorem arity_of_check_gap :
    check "%d%3$s" [⟨"I"⟩, ⟨"["⟩, ⟨"Ljava/lang/String;"⟩] = .ok () ∧
      ∃ segments, Arity "%d%3$s" segments [⟨"I"⟩, ⟨"["⟩, ⟨"Ljava/lang/String;"⟩] := by
  have hcheck : check "%d%3$s" [⟨"I"⟩, ⟨"["⟩, ⟨"Ljava/lang/String;"⟩] = .ok () := by decide +kernel
  exact ⟨hcheck, arity_of_check _ _ hcheck⟩

end FormatCheck
