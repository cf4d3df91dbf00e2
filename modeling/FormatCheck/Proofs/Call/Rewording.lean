import FormatCheck.Call.Check
import FormatCheck.Proofs.Call.History
import FormatCheck.Proofs.Format.Reprinting

/-! # Other words for the same format text

Two texts that differ only in how they are written pass and fail alike. This holds for
a text and its canonical form, and for a text and the one that names all its arguments
by position. -/

namespace FormatCheck

/-! ## Verdicts do not depend on ranges -/

theorem Segment.values_eq_filterMap (segments : List (Located Segment)) :
    values segments = (segments.map Located.value).filterMap specifier? := by
  simp [values, specifiers, List.map_filterMap, List.filterMap_map, Function.comp_def]

/-- What is wrong with a specifier that resolves; nothing when it reads no argument. -/
def Specifier.failure? (specifier : Specifier) (position? : Option UInt32)
    (arguments : List Signature) : Option Problem :=
  position?.bind fun position => specifier.problem? position arguments

namespace Tracker

theorem advance_of_ok {tracker after : Tracker} {specifier : Specifier}
    {position? : Option UInt32} (h : tracker.resolve specifier = .ok (position?, after)) :
    tracker.advance specifier = after := by
  rw [advance, h]

/-- A specifier that resolves fails on its argument, or those behind it are followed. -/
theorem follow_cons_of_ok {arguments : List Signature} {tracker after : Tracker}
    {specifier : Located Specifier} {position? : Option UInt32}
    (h : tracker.resolve specifier.value = .ok (position?, after))
    (rest : List (Located Specifier)) :
    tracker.follow arguments (specifier :: rest) =
      match specifier.value.failure? position? arguments with
      | some problem => .error ⟨problem, specifier.span⟩
      | none => after.follow arguments rest := by
  cases position? with
  | none => simp [follow, h, Specifier.failure?]
  | some position =>
      cases hproblem : specifier.value.problem? position arguments with
      | none => simp [follow, h, Specifier.failure?, hproblem]
      | some problem => simp [follow, h, Specifier.failure?, hproblem]

theorem follow_congr (arguments : List Signature) (tracker : Tracker)
    {specifiers others : List (Located Specifier)}
    (h : others.map Located.value = specifiers.map Located.value) :
    (tracker.follow arguments others).mapError Located.value =
      (tracker.follow arguments specifiers).mapError Located.value := by
  induction specifiers generalizing tracker others with
  | nil =>
      obtain rfl := List.map_eq_nil_iff.mp h
      rfl
  | cons specifier rest ih =>
      obtain ⟨other, more, rfl, hvalue, hmore⟩ := List.map_eq_cons_iff.mp h
      cases hresolve : tracker.resolve specifier.value with
      | error reason =>
          have hother := hvalue ▸ hresolve
          simp only [follow, hresolve, hother]
          rfl
      | ok result =>
          obtain ⟨position?, after⟩ := result
          have hother : tracker.resolve other.value = .ok (position?, after) := hvalue ▸ hresolve
          rw [follow_cons_of_ok hresolve, follow_cons_of_ok hother, hvalue]
          split
          · rfl
          · exact ih after hmore

end Tracker

/-- A verdict is what following the specifiers comes to and the highest position. -/
theorem mapError_check_of_parse {β : Type} {format : String} {segments : List (Located Segment)}
    (h : parse format = .ok segments) (arguments : List Signature)
    (view : Located Problem → β) :
    (check format arguments).mapError view =
      match (Tracker.start.follow arguments (Segment.specifiers segments)).mapError view with
      | .error seen => .error seen
      | .ok tracker =>
          if tracker.maxReferenced.toNat < arguments.length then
            .error (view ⟨.extra arguments.length tracker.maxReferenced, .whole format⟩)
          else .ok () := by
  cases hfollow : Tracker.start.follow arguments (Segment.specifiers segments) with
  | error problem => simp [check, h, hfollow, Except.mapError]
  | ok tracker =>
      by_cases hlt : tracker.maxReferenced.toNat < arguments.length
      · simp [check, h, hfollow, Except.mapError, hlt]
      · simp [check, h, hfollow, Except.mapError, hlt]

/-- The range of the whole text does not count for a view without ranges. -/
theorem mapError_check {format : String} {segments : List (Located Segment)}
    (h : parse format = .ok segments) (arguments : List Signature)
    {view : Located Problem → Problem}
    (hview : ∀ supplied referenced span,
      view ⟨.extra supplied referenced, span⟩ = .extra supplied referenced) :
    (check format arguments).mapError view =
      match ((Tracker.start.follow arguments (Segment.specifiers segments)).mapError view).map
        Tracker.maxReferenced with
      | .error problem => .error problem
      | .ok highest =>
          if highest.toNat < arguments.length then .error (.extra arguments.length highest)
          else .ok () := by
  rw [mapError_check_of_parse h]
  cases (Tracker.start.follow arguments (Segment.specifiers segments)).mapError view <;>
    simp [Except.map, hview]

/-! ## Canonical texts -/

/-- A canonical text is made of plain text and canonical specifiers. It is read as the
text that it was made from, is its own canonical text, and passes and fails with the
same arguments for the same reason. -/
theorem canonicalize_keeps_meaning (format : String) (segments : List (Located Segment))
    (h : parse format = .ok segments) :
    ∃ canonical others, canonicalize format = .ok canonical ∧
      canonical.toList = (segments.map Located.value).flatMap Segment.chars ∧
      parse canonical = .ok others ∧
      others.map Located.value = segments.map Located.value ∧
      canonicalize canonical = .ok canonical ∧
      ∀ arguments, (check canonical arguments).mapError Located.value =
        (check format arguments).mapError Located.value := by
  obtain ⟨canonical, others, hcanonical, hparse, hvalues⟩ := exists_parse_canonicalize h
  refine ⟨canonical, others, hcanonical, ?_, hparse, hvalues, ?_, ?_⟩
  · rw [canonicalize_of_parse h] at hcanonical
    rw [← Except.ok.inj hcanonical, String.toList_ofList]
  · rw [canonicalize_of_parse hparse, hvalues, ← canonicalize_of_parse h, hcanonical]
  · intro arguments
    have hspecifiers : Segment.values others = Segment.values segments := by
      rw [Segment.values_eq_filterMap, hvalues, ← Segment.values_eq_filterMap]
    have hfollow := Tracker.follow_congr arguments .start hspecifiers
    rw [mapError_check h arguments fun _ _ _ => rfl,
      mapError_check hparse arguments fun _ _ _ => rfl, hfollow]

/-- The flags change places and the position loses its zero. -/
theorem canonicalize_keeps_meaning_flags :
    canonicalize "é%,+08d%02$-5s" = .ok "é%+0,8d%2$-5s" ∧
      ∀ arguments, (check "é%+0,8d%2$-5s" arguments).mapError Located.value =
        (check "é%,+08d%02$-5s" arguments).mapError Located.value := by
  have hparse : parse "é%,+08d%02$-5s" =
      .ok [⟨.literal "é", 0, 2⟩,
        ⟨.specifier ⟨.implicit, .ofList [.plus, .zeroPad, .group], some 8, none, .decimal, false⟩,
          2, 8⟩,
        ⟨.specifier ⟨.explicit 2, .ofList [.leftJustify], some 5, none, .string, false⟩,
          8, 15⟩] := by
    decide +kernel
  have htext : canonicalize "é%,+08d%02$-5s" = .ok "é%+0,8d%2$-5s" := by
    rw [canonicalize_of_parse hparse]
    decide +kernel
  obtain ⟨canonical, others, hcanonical, -, -, -, -, hcheck⟩ :=
    canonicalize_keeps_meaning _ _ hparse
  obtain rfl : canonical = "é%+0,8d%2$-5s" := Except.ok.inj (hcanonical.symm.trans htext)
  exact ⟨htext, hcheck⟩

/-! ## Positions spelled out -/

/-- The specifier without regard to how it names its argument. -/
def Specifier.withoutIndex (specifier : Specifier) : Specifier :=
  { specifier with index := .implicit }

theorem Specifier.conversion_withoutIndex (specifier : Specifier) :
    specifier.withoutIndex.conversion = specifier.conversion := rfl

/-- The problem without regard to how the specifier names its argument. -/
def Problem.withoutIndex : Problem → Problem
  | mismatch specifier position expected actual reason =>
      mismatch specifier.withoutIndex position expected actual reason
  | problem => problem

namespace Tracker

/-- The specifier with the position that it resolves to, if it reads an argument. -/
def spelledOut? (tracker : Tracker) (specifier : Specifier) : Option Specifier :=
  match tracker.resolve specifier with
  | .ok (some position, _) => some { specifier with index := .explicit position }
  | _ => none

/-- The positions of all specifiers that read an argument are spelled out. -/
def revisions (tracker : Tracker) : List (Located Segment) → List Revision
  | [] => []
  | segment :: segments =>
      match segment.value with
      | .literal _ => ⟨segment, none⟩ :: tracker.revisions segments
      | .specifier specifier =>
          ⟨segment, tracker.spelledOut? specifier⟩ ::
            (tracker.advance specifier).revisions segments

end Tracker

/-- The text with the position of every argument spelled out, and all else as it is. -/
def spellOut (format : String) : Except (Located Fault) String :=
  (parse format).map fun segments => reprint format (Tracker.start.revisions segments)

namespace Tracker

/-- Specifiers with their positions spelled out. -/
def spelledOut (tracker : Tracker) : List Specifier → List Specifier
  | [] => []
  | specifier :: rest =>
      (tracker.spelledOut? specifier).getD specifier :: (tracker.advance specifier).spelledOut rest

theorem segment_revisions (tracker : Tracker) (segments : List (Located Segment)) :
    (tracker.revisions segments).map Revision.segment = segments := by
  fun_induction revisions tracker segments <;> simp_all

theorem values_revisions (tracker : Tracker) (segments : List (Located Segment)) :
    ((tracker.revisions segments).map Revision.value).filterMap Segment.specifier? =
      tracker.spelledOut (Segment.values segments) := by
  rw [Segment.values_eq_filterMap]
  fun_induction revisions tracker segments with
  | case1 => rfl
  | case2 tracker segment segments text hvalue ih =>
      simp [Revision.value, hvalue, List.filterMap_cons, Segment.specifier?, ih]
  | case3 tracker segment segments specifier hvalue ih =>
      cases hspelled : tracker.spelledOut? specifier <;>
        simp [Revision.value, hvalue, Segment.specifier?, ih, spelledOut, hspelled]

/-! ### One step -/

/-- What is known of a specifier that reads the argument at a position. -/
structure ReadsPosition (tracker : Tracker) (specifier : Specifier) (position : UInt32)
    (after : Tracker) : Prop where
  readsArgument : specifier.readsArgument = true
  lastUsed : after.lastUsed = some position
  maxReferenced : after.maxReferenced = max tracker.maxReferenced position
  position_ne_zero : tracker.lastUsed ≠ some 0 → specifier.index ≠ .explicit 0 → position ≠ 0

theorem increment_ne_zero (n : UInt32) : increment n ≠ 0 := by
  intro hzero
  have hmin := toNat_increment_eq_min n
  rw [hzero, UInt32.toNat_zero] at hmin
  omega

theorem readsPosition_of_resolve {tracker after : Tracker} {specifier : Specifier}
    {position : UInt32} (h : tracker.resolve specifier = .ok (some position, after)) :
    ReadsPosition tracker specifier position after := by
  have hstep := stepOf_resolution tracker ⟨specifier, default⟩
  rw [resolution_of_ok h] at hstep
  cases hstep with
  | explicit hreads hindex =>
      exact ⟨hreads, rfl, rfl, fun _ hne hzero => hne (hzero ▸ hindex)⟩
  | implicit hreads hindex hposition =>
      exact ⟨hreads, rfl, rfl, fun _ _ => hposition ▸ increment_ne_zero _⟩
  | relative hreads hindex hused =>
      exact ⟨hreads, rfl, rfl, fun hne _ hzero => hne (hzero ▸ hused)⟩

theorem skips_of_resolve {tracker after : Tracker} {specifier : Specifier}
    (h : tracker.resolve specifier = .ok (none, after)) :
    specifier.readsArgument = false ∧ after = tracker := by
  have hstep := stepOf_resolution tracker ⟨specifier, default⟩
  rw [resolution_of_ok h] at hstep
  cases hstep with
  | skipped hreads => exact ⟨hreads, rfl⟩

/-- Seen from any tracker with the same highest position, a specifier with its position
spelled out does what it does without. -/
theorem resolve_spelledOut {tracker other after : Tracker} {specifier : Specifier}
    {position? : Option UInt32} (h : tracker.resolve specifier = .ok (position?, after))
    (hmax : other.maxReferenced = tracker.maxReferenced) :
    ∃ after', other.resolve ((tracker.spelledOut? specifier).getD specifier) =
        .ok (position?, after') ∧ after'.maxReferenced = after.maxReferenced := by
  cases position? with
  | none =>
      obtain ⟨hreads, rfl⟩ := skips_of_resolve h
      exact ⟨other, by simp [spelledOut?, resolve, hreads], hmax⟩
  | some position =>
      have hposition := readsPosition_of_resolve h
      let named : Specifier := { specifier with index := .explicit position }
      have hreads : named.readsArgument = true := hposition.readsArgument
      refine ⟨{ other with lastExplicit := some position }.use position, ?_, ?_⟩
      · simp only [spelledOut?, h, Option.getD_some]
        rw [resolve, hreads]
        rfl
      · rw [hposition.maxReferenced, ← hmax]
        rfl

/-- A specifier with its position spelled out can be written. -/
theorem writable_spelledOut {tracker : Tracker} {specifier named : Specifier}
    (h : tracker.spelledOut? specifier = some named) (hused : tracker.lastUsed ≠ some 0)
    (hwritable : specifier.Writable) : named.Writable := by
  unfold spelledOut? at h
  split at h
  · rename_i position after hresolve
    obtain rfl := Option.some.inj h
    have hposition := readsPosition_of_resolve hresolve
    have hreads : specifier.conversion.readsArgument = true := hposition.readsArgument
    have hvalid := hwritable.valid
    refine ⟨?_, ?_, hwritable.width_ne_zero, hwritable.lowercase⟩
    · simpa [Specifier.fault?, hreads] using hvalid
    · simpa using hposition.position_ne_zero hused hwritable.index_ne_zero
  · cases h

theorem lastUsed_advance {tracker : Tracker} {specifier : Specifier}
    (hused : tracker.lastUsed ≠ some 0) (hindex : specifier.index ≠ .explicit 0) :
    (tracker.advance specifier).lastUsed ≠ some 0 := by
  unfold advance
  split
  · rename_i position? after hresolve
    cases position? with
    | none =>
        obtain ⟨-, rfl⟩ := skips_of_resolve hresolve
        exact hused
    | some position =>
        have hposition := readsPosition_of_resolve hresolve
        simpa [hposition.lastUsed] using hposition.position_ne_zero hused hindex
  · exact hused

/-! ### Whole texts -/

theorem sound_revisions {tracker : Tracker} {segments : List (Located Segment)}
    (hused : tracker.lastUsed ≠ some 0)
    (hwritable : ∀ specifier ∈ Segment.values segments, specifier.Writable) :
    ∀ revision ∈ tracker.revisions segments, revision.Sound := by
  rw [Segment.values_eq_filterMap] at hwritable
  -- A relative specifier would be written with position zero if zero had been used last.
  fun_induction revisions tracker segments with
  | case1 => simp
  | case2 tracker segment segments text hvalue ih =>
      simp only [List.map_cons, hvalue, List.filterMap_cons, Segment.specifier?] at hwritable
      refine List.forall_mem_cons.mpr ⟨by simp [Revision.Sound], ih hused hwritable⟩
  | case3 tracker segment segments specifier hvalue ih =>
      simp only [List.map_cons, hvalue, List.filterMap_cons, Segment.specifier?,
        List.forall_mem_cons] at hwritable
      obtain ⟨hfirst, hrest⟩ := hwritable
      refine List.forall_mem_cons.mpr ⟨?_, ih (lastUsed_advance hused hfirst.index_ne_zero) hrest⟩
      intro named hnamed
      exact writable_spelledOut hnamed hused hfirst

theorem exists_resolve_of_resolveAll {tracker : Tracker} {specifier : Specifier}
    {rest : List Specifier}
    (h : ∀ reason, .error reason ∉ tracker.resolveAll (specifier :: rest)) :
    ∃ position? after, tracker.resolve specifier = .ok (position?, after) ∧
      ∀ reason, .error reason ∉ after.resolveAll rest := by
  cases hresolve : tracker.resolve specifier with
  | error reason => exact absurd (by simp [resolveAll, hresolve, Except.map]) (h reason)
  | ok result =>
      obtain ⟨position?, after⟩ := result
      refine ⟨position?, after, rfl, ?_⟩
      intro reason hmem
      rw [← advance_of_ok hresolve] at hmem
      exact h reason (List.mem_cons_of_mem _ hmem)

/-- Only specifiers that read no argument are left without a position. -/
theorem index_spelledOut {tracker : Tracker} {specifiers : List Specifier}
    (h : ∀ reason, .error reason ∉ tracker.resolveAll specifiers) :
    ∀ specifier ∈ tracker.spelledOut specifiers, specifier.readsArgument = true →
      ∃ position, specifier.index = .explicit position := by
  induction specifiers generalizing tracker with
  | nil => simp [spelledOut]
  | cons specifier rest ih =>
      obtain ⟨position?, after, hresolve, hrest⟩ := exists_resolve_of_resolveAll h
      rw [spelledOut, advance_of_ok hresolve]
      refine List.forall_mem_cons.mpr ⟨?_, ih hrest⟩
      intro hreads
      cases position? with
      | none =>
          simp only [spelledOut?, hresolve, Option.getD_none] at hreads
          rw [(skips_of_resolve hresolve).1] at hreads
          cases hreads
      | some position => exact ⟨position, by simp [spelledOut?, hresolve]⟩

/-- Specifiers with their positions spelled out resolve to the same positions. -/
theorem resolveAll_spelledOut {tracker other : Tracker} {specifiers : List Specifier}
    (hmax : other.maxReferenced = tracker.maxReferenced)
    (h : ∀ reason, .error reason ∉ tracker.resolveAll specifiers) :
    other.resolveAll (tracker.spelledOut specifiers) = tracker.resolveAll specifiers := by
  induction specifiers generalizing tracker other with
  | nil => rfl
  | cons specifier rest ih =>
      obtain ⟨position?, after, hresolve, hrest⟩ := exists_resolve_of_resolveAll h
      obtain ⟨after', hother, hmax'⟩ := resolve_spelledOut hresolve hmax
      rw [spelledOut, resolveAll, resolveAll, hresolve, hother, advance_of_ok hresolve,
        advance_of_ok hother, ih hmax' hrest]
      rfl

end Tracker

/-- How a specifier names its argument does not change what is wrong with it. -/
theorem Specifier.map_failure? {specifier other : Specifier}
    (h : other.withoutIndex = specifier.withoutIndex) (position? : Option UInt32)
    (arguments : List Signature) :
    (other.failure? position? arguments).map Problem.withoutIndex =
      (specifier.failure? position? arguments).map Problem.withoutIndex := by
  have hconversion : other.conversion = specifier.conversion := by
    rw [← other.conversion_withoutIndex, h, conversion_withoutIndex]
  cases position? with
  | none => rfl
  | some position =>
      simp only [failure?, problem?, hconversion, Option.bind_some]
      cases specifier.conversion.family? with
      | none => rfl
      | some family =>
          cases arguments[position.toNat - 1]? with
          | none => rfl
          | some argument => simp [Function.comp_def, Problem.withoutIndex, h]

namespace Tracker

theorem withoutIndex_spelledOut (tracker : Tracker) (specifier : Specifier) :
    ((tracker.spelledOut? specifier).getD specifier).withoutIndex = specifier.withoutIndex := by
  unfold spelledOut?
  split <;> rfl

/-- Specifiers with their positions spelled out pass and fail alike. -/
theorem follow_spelledOut (arguments : List Signature) {tracker other : Tracker}
    {specifiers others : List (Located Specifier)}
    (hothers : others.map Located.value = tracker.spelledOut (specifiers.map Located.value))
    (hmax : other.maxReferenced = tracker.maxReferenced)
    (h : ∀ reason, .error reason ∉ tracker.resolveAll (specifiers.map Located.value)) :
    ((other.follow arguments others).mapError fun problem => problem.value.withoutIndex).map
        maxReferenced =
      ((tracker.follow arguments specifiers).mapError
        fun problem => problem.value.withoutIndex).map maxReferenced := by
  induction specifiers generalizing tracker other others with
  | nil =>
      obtain rfl := List.map_eq_nil_iff.mp hothers
      simp [follow, Except.mapError, Except.map, hmax]
  | cons specifier rest ih =>
      -- The trackers agree on the highest position only; no other part of them is read
      -- once the positions are spelled out.
      obtain ⟨named, more, rfl, hvalue, hmore⟩ := List.map_eq_cons_iff.mp hothers
      obtain ⟨position?, after, hresolve, hrest⟩ := exists_resolve_of_resolveAll h
      obtain ⟨after', hother, hmax'⟩ := resolve_spelledOut hresolve hmax
      rw [← hvalue] at hother
      rw [advance_of_ok hresolve] at hmore
      have hsame : named.value.withoutIndex = specifier.value.withoutIndex := by
        rw [hvalue, withoutIndex_spelledOut]
      have hfailure := Specifier.map_failure? hsame position? arguments
      rw [follow_cons_of_ok hresolve, follow_cons_of_ok hother]
      cases hfound : specifier.value.failure? position? arguments with
      | none =>
          rw [hfound] at hfailure
          rw [Option.map_eq_none_iff.mp hfailure]
          exact ih hmore hmax' hrest
      | some problem =>
          rw [hfound] at hfailure
          obtain ⟨other, hnamed, hview⟩ := Option.map_eq_some_iff.mp hfailure
          rw [hnamed]
          simp [Except.mapError, Except.map, hview]

end Tracker

/-- Relative and implicit indices are only notation: with all positions spelled out, the
specifiers read the same arguments, and a call passes and fails for the same reason. -/
theorem spellOut_keeps_meaning (format : String) (results : List (Except Missing (Option UInt32)))
    (h : positions format = .ok results) (hresolves : ∀ reason, .error reason ∉ results) :
    ∃ spelled others, spellOut format = .ok spelled ∧ parse spelled = .ok others ∧
      (∀ specifier ∈ Segment.values others, specifier.readsArgument = true →
        ∃ position, specifier.index = .explicit position) ∧
      positions spelled = .ok results ∧
      ∀ arguments, (check spelled arguments).mapError (fun problem => problem.value.withoutIndex) =
        (check format arguments).mapError fun problem => problem.value.withoutIndex := by
  cases hparse : parse format with
  | error fault =>
      rw [positions, hparse] at h
      cases h
  | ok segments =>
      rw [positions, hparse] at h
      obtain rfl := Except.ok.inj h
      have hwritable : ∀ specifier ∈ Segment.values segments, specifier.Writable :=
        fun specifier hmem => writable_of_parse hparse hmem
      have hsound : ∀ revision ∈ Tracker.start.revisions segments, revision.Sound :=
        Tracker.sound_revisions (by decide) hwritable
      obtain ⟨others, hothers, hvalues⟩ :=
        parse_reprint hparse (Tracker.segment_revisions .start segments) hsound
      have hspelled : Segment.values others =
          Tracker.start.spelledOut (Segment.values segments) := by
        rw [Segment.values_eq_filterMap, hvalues, Tracker.values_revisions]
      refine ⟨_, others, by rw [spellOut, hparse]; rfl, hothers, ?_, ?_, ?_⟩
      · rw [hspelled]
        exact Tracker.index_spelledOut hresolves
      · have hall : Tracker.start.resolveAll (Segment.values others) =
            Tracker.start.resolveAll (Segment.values segments) := by
          rw [hspelled]
          exact Tracker.resolveAll_spelledOut rfl hresolves
        rw [positions, hothers]
        exact congrArg Except.ok hall
      · intro arguments
        rw [mapError_check hparse arguments fun _ _ _ => rfl,
          mapError_check hothers arguments fun _ _ _ => rfl,
          Tracker.follow_spelledOut arguments hspelled rfl hresolves]

/-- The relative specifier reads what the one before it reads, and neither of them counts
for the implicit one. -/
theorem spellOut_keeps_meaning_mixed :
    spellOut "%2$s%<d%s" = .ok "%2$s%2$d%1$s" ∧
      positions "%2$s%2$d%1$s" = .ok [.ok (some 2), .ok (some 2), .ok (some 1)] := by
  have hpositions : positions "%2$s%<d%s" = .ok [.ok (some 2), .ok (some 2), .ok (some 1)] := by
    decide +kernel
  have htext : spellOut "%2$s%<d%s" = .ok "%2$s%2$d%1$s" := by
    decide +kernel
  obtain ⟨spelled, others, hspelled, -, -, hsame, -⟩ :=
    spellOut_keeps_meaning _ _ hpositions (by simp)
  obtain rfl : spelled = "%2$s%2$d%1$s" := Except.ok.inj (hspelled.symm.trans htext)
  exact ⟨htext, hsame⟩

end FormatCheck
