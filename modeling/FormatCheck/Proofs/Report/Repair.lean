import FormatCheck.Proofs.Argument.Suggestion
import FormatCheck.Proofs.Call.Verdict
import FormatCheck.Proofs.Report.Replacement
import FormatCheck.Report.Diagnosis

/-! # Repairs of rejected arguments

The fix for a specifier that rejects its argument gives a text in which it accepts the
argument, and no specifier before it fails for the first time. -/

namespace FormatCheck

/-! ## Replacements -/

/-- Index and width suit every conversion that reads an argument. -/
theorem Specifier.Writable.withConversion {specifier : Specifier} {conversion : Conversion}
    (h : specifier.Writable) (hreads : conversion.readsArgument = true) :
    (specifier.withConversion conversion).Writable where
  valid := by
    apply fault?_of_justified hreads
    intro hjustify
    exact (Bool.and_eq_true_iff.mp hjustify).1
  index_ne_zero := h.index_ne_zero
  width_ne_zero := h.width_ne_zero
  lowercase := fun _ => rfl

/-- The replacement reads the same argument. -/
theorem Specifier.reference?_withConversion {specifier : Specifier} {conversion : Conversion}
    (h : specifier.readsArgument = true) (hreads : conversion.readsArgument = true) :
    (specifier.withConversion conversion).reference? = specifier.reference? := by
  have hreads' : (specifier.withConversion conversion).readsArgument = true := hreads
  rw [reference?, if_pos hreads', reference?, if_pos h]
  rfl

namespace Replaces

variable {format fixed : String} {specifier replacement : Specifier} {span : Span}
  {before after moved : List (Located Segment)}

/-- What stands behind a replaced specifier has moved, but is the same. -/
theorem values_moved (h : Replaces format fixed specifier replacement span before after moved) :
    Segment.values moved = Segment.values after := by
  rw [← Segment.values_shift moved span.length, h.moved_eq, Segment.values_shift]

theorem values_fixed (h : Replaces format fixed specifier replacement span before after moved)
    (span' : Span) :
    Segment.values (before ++ ⟨.specifier replacement, span'⟩ :: moved) =
      Segment.values before ++ replacement :: Segment.values after := by
  rw [Segment.values_append_cons, h.values_moved]

end Replaces

theorem SameReferences.replace {specifier replacement : Specifier}
    (h : replacement.reference? = specifier.reference?) (front back : List Specifier) :
    SameReferences (front ++ specifier :: back) (front ++ replacement :: back) := by
  simp [SameReferences, h]

/-- Every specifier resolves as before. -/
theorem Replaces.positions_eq {format fixed : String} {specifier replacement : Specifier}
    {span : Span} {before after moved : List (Located Segment)}
    (h : Replaces format fixed specifier replacement span before after moved)
    (hreference : replacement.reference? = specifier.reference?) :
    positions fixed = positions format := by
  have hsame := SameReferences.replace hreference (Segment.values before) (Segment.values after)
  rw [positions, positions, h.parse_format, h.parse_fixed, Except.map, Except.map,
    ← Segment.values, ← Segment.values, h.values_fixed, Segment.values_append_cons,
    hsame.resolveAll]

/-! ## Fixes -/

/-- A fix with one substitution makes this substitution. -/
theorem Fix.applyTo?_replace (message : String) (confidence : Confidence) (span : Span)
    (snippet source : String) :
    (Fix.replace message confidence span snippet).applyTo? source =
      (Substitution.applyTo? ⟨span, snippet⟩ source.toList).map String.ofList := by
  cases h : Substitution.applyTo? ⟨span, snippet⟩ source.toList <;>
    simp [applyTo?, ordered, Fix.replace, h]

/-- A suggestion becomes the one fix of the diagnosis. -/
theorem exists_fix {actual : Signature} {suggested : Conversion}
    (h : actual.suggestion? = some suggested) (specifier : Specifier) (position : UInt32)
    (expected : Family) (span : Span) :
    ∃ fix : Fix,
      ((Problem.mismatch specifier position expected actual .incompatible).diagnose span).fixes =
        [fix] ∧
      ∀ source : String, fix.applyTo? source =
        (Substitution.applyTo? ⟨span, (specifier.withConversion suggested).text⟩
          source.toList).map String.ofList := by
  obtain ⟨fix, hfix⟩ : ∃ fix, specifier.fix? actual span = some fix := by
    simp [Specifier.fix?, h]
  refine ⟨fix, by simp [Problem.diagnose, Problem.fixes, hfix], ?_⟩
  rw [Specifier.fix?, h, Option.map_some, Option.some.injEq] at hfix
  subst hfix
  intro source
  exact Fix.applyTo?_replace _ _ span _ source

/-! ## Checking again -/

/-- What checking can give once a specifier has been replaced: success, arguments left
over beyond the positions of the first text, or a failure of a specifier behind. -/
inductive Rechecked (specifiers : List Specifier) (arguments : List Signature) (fixed : String)
    (behind : List (Located Specifier)) : Except (Located Problem) Unit → Prop where
  | passed : Rechecked specifiers arguments fixed behind (.ok ())
  | extra {referenced : UInt32}
      (hhighest : HighestBefore specifiers specifiers.length referenced.toNat) :
      Rechecked specifiers arguments fixed behind
        (.error ⟨.extra arguments.length referenced, .whole fixed⟩)
  | missing {specifier : Located Specifier} {reason : Missing} (hmem : specifier ∈ behind) :
      Rechecked specifiers arguments fixed behind (.error ⟨.missing reason, specifier.span⟩)
  | mismatch {specifier : Located Specifier} {position : UInt32} {expected : Family}
      {actual : Signature} {reason : Mismatch} (hmem : specifier ∈ behind) :
      Rechecked specifiers arguments fixed behind
        (.error ⟨.mismatch specifier.value position expected actual reason, specifier.span⟩)

/-- Failures come from missing and from rejected arguments. -/
theorem FailsAt.rechecked {specifiers others : List Specifier} {arguments : List Signature}
    {fixed : String} {place : Nat} {behind : List (Located Specifier)}
    {specifier : Located Specifier} {problem : Problem}
    (h : FailsAt others arguments place problem) (hplace : others[place]? = some specifier.value)
    (hmem : specifier ∈ behind) :
    Rechecked specifiers arguments fixed behind (.error ⟨problem, specifier.span⟩) := by
  cases h with
  | noPrevious _ _ _ => exact .missing hmem
  | outOfRange _ _ => exact .missing hmem
  | mismatch hreads _ _ _ _ _ =>
      obtain rfl := Option.some.inj (hplace.symm.trans hreads.at_place)
      exact .mismatch hmem

/-- When the first specifier to fail is replaced by one that reads the same argument and
passes, only specifiers behind it can fail. -/
theorem FailsAt.lt_of_replace {front back : List Specifier} {specifier replacement : Specifier}
    {arguments : List Signature} {position : UInt32} {place : Nat} {problem : Problem}
    (h : FailsAt (front ++ replacement :: back) arguments place problem)
    (hreference : replacement.reference? = specifier.reference?)
    (hreads : replacement.readsArgument = true)
    (hrefers : RefersTo (front ++ specifier :: back) front.length position.toNat)
    (hpassed : PassesBefore (front ++ specifier :: back) arguments front.length)
    (hpasses : replacement.problem? position arguments = none) : front.length < place := by
  have hsame := SameReferences.replace hreference front back
  rcases Nat.lt_trichotomy place front.length with hlt | rfl | hgt
  · have hplace : (front ++ specifier :: back)[place]? =
        (front ++ replacement :: back)[place]? := by
      rw [List.getElem?_append_left hlt, List.getElem?_append_left hlt]
    exact absurd (h.of_sameReferences hsame.symm hplace) (hpassed place hlt problem)
  · have hat : ReadsAt (front ++ replacement :: back) front.length replacement :=
      ⟨by simp, hreads⟩
    rw [h.problem?_eq hat (hsame.refersTo hrefers)] at hpasses
    cases hpasses
  · exact hgt

theorem mem_of_getElem?_append_cons {α : Type} {front back : List α} {x y : α} {place : Nat}
    (h : (front ++ x :: back)[place]? = some y) (hlt : front.length < place) : y ∈ back := by
  obtain ⟨step, rfl⟩ := Nat.exists_eq_add_of_lt hlt
  rw [List.getElem?_append_right (by omega)] at h
  have hstep : front.length + step + 1 - front.length = step + 1 := by omega
  rw [hstep, List.getElem?_cons_succ] at h
  exact List.mem_of_getElem? h

namespace Replaces

variable {format fixed : String} {specifier replacement : Specifier} {span : Span}
  {before after moved : List (Located Segment)} {arguments : List Signature}

theorem countFits (h : Replaces format fixed specifier replacement span before after moved)
    (hformat : CountFits format) : CountFits fixed := by
  intro segments hparse
  rw [h.parse_fixed] at hparse
  obtain rfl := Except.ok.inj hparse
  have hfits := hformat _ h.parse_format
  have hlength := congrArg List.length h.values_moved
  simp only [Segment.values, List.length_map] at hlength
  simp only [Segment.specifiers_append, Segment.specifiers_cons_specifier, List.length_append,
    List.length_cons] at hfits ⊢
  omega

end Replaces

/-- The first specifier to fail is replaced by one that reads the same argument and
accepts it. -/
structure Repairs (format fixed : String) (arguments : List Signature)
    (specifier replacement : Specifier) (position : UInt32) (span : Span)
    (before after moved : List (Located Segment)) : Prop
    extends Replaces format fixed specifier replacement span before after moved where
  reference : replacement.reference? = specifier.reference?
  reads : replacement.readsArgument = true
  refers : RefersTo (Segment.values before ++ specifier :: Segment.values after)
    (Segment.values before).length position.toNat
  fails : ∃ problem, FailsAt (Segment.values before ++ specifier :: Segment.values after) arguments
    (Segment.values before).length problem
  passed : PassesBefore (Segment.values before ++ specifier :: Segment.values after) arguments
    (Segment.values before).length
  passes : replacement.problem? position arguments = none

namespace Repairs

variable {format fixed : String} {arguments : List Signature} {specifier replacement : Specifier}
  {position : UInt32} {span : Span} {before after moved : List (Located Segment)}

/-- Only specifiers behind the replaced one can fail. -/
theorem lt_of_failsAt {place : Nat} {problem : Problem}
    (h : Repairs format fixed arguments specifier replacement position span before after moved)
    (hfails : FailsAt (Segment.values before ++ replacement :: Segment.values after) arguments
      place problem) : (Segment.values before).length < place :=
  hfails.lt_of_replace h.reference h.reads h.refers h.passed h.passes

theorem rechecked
    (h : Repairs format fixed arguments specifier replacement position span before after moved)
    (hformat : CountFits format) :
    Rechecked (Segment.values before ++ specifier :: Segment.values after) arguments fixed
      (Segment.specifiers moved) (check fixed arguments) := by
  have hsame := SameReferences.replace h.reference (Segment.values before) (Segment.values after)
  have hverdict := verdict_check arguments (h.countFits hformat)
  generalize check fixed arguments = result at hverdict
  cases hverdict with
  | malformed hparse => cases h.parse_fixed.symm.trans hparse
  | @failed _ problem hparse hfirst =>
      cases h.parse_fixed.symm.trans hparse
      obtain ⟨place, found, hat, hfails, -⟩ := hfirst
      rw [← Segment.values, h.values_fixed] at hfails
      have hlt := h.lt_of_failsAt hfails
      have hvalue := Segment.getElem?_values hat
      rw [h.values_fixed] at hvalue
      rw [Segment.specifiers_append, Segment.specifiers_cons_specifier] at hat
      have hmem : ⟨found, problem.span⟩ ∈ Segment.specifiers moved :=
        mem_of_getElem?_append_cons hat (by rwa [Segment.values, List.length_map] at hlt)
      exact hfails.rechecked hvalue hmem
  | extra hparse _ hhighest _ =>
      cases h.parse_fixed.symm.trans hparse
      rw [h.values_fixed] at hhighest
      have hlength : (Segment.values before ++ specifier :: Segment.values after).length =
          (Segment.values before ++ replacement :: Segment.values after).length := by
        simp
      refine .extra ?_
      rw [hlength]
      exact hsame.symm.highestBefore hhighest
  | passed _ _ _ _ => exact .passed

end Repairs

/-- An argument of the wrong type has one fix, which can be made, and which repairs the
specifier that rejects the argument. -/
theorem exists_repairs {format : String} {arguments : List Signature} {specifier : Specifier}
    {position : UInt32} {expected : Family} {actual : Signature} {span : Span}
    (hformat : CountFits format)
    (h : check format arguments =
      .error ⟨.mismatch specifier position expected actual .incompatible, span⟩) :
    ∃ fix fixed suggested before after moved,
      ((Problem.mismatch specifier position expected actual .incompatible).diagnose span).fixes =
        [fix] ∧
      fix.applyTo? format = some fixed ∧
      actual.suggestion? = some suggested ∧
      Repairs format fixed arguments specifier (specifier.withConversion suggested) position span
        before after moved := by
  obtain ⟨segments, place, hparse, hat, hfails, hpassed⟩ := exists_place_of_mismatch hformat h
  have hfailed := hfails
  cases hfails with
  | mismatch hreads hrefers hoffset hargument hfamily hrejects =>
      obtain ⟨suggested, family, hsuggestion, hsuits, haccepts⟩ := exists_suggestion hrejects
      have hsuggested : suggested.readsArgument = true := by
        rw [← Conversion.isSome_family?, hsuits, Option.isSome_some]
      have hwritable : (specifier.withConversion suggested).Writable :=
        (writable_of_parse hparse (List.mem_of_getElem? hreads.at_place)).withConversion hsuggested
      have hreference := Specifier.reference?_withConversion hreads.reads hsuggested
      have hpasses : (specifier.withConversion suggested).problem? position arguments = none := by
        simp [Specifier.problem?, Specifier.withConversion, hsuits, hoffset, hargument, haccepts]
      obtain ⟨fix, hfix, hmakes⟩ := exists_fix hsuggestion specifier position expected span
      obtain ⟨fixed, before, after, moved, happly, hreplaces, hbefore⟩ :=
        exists_replaces hparse hat hwritable
      cases hparse.symm.trans hreplaces.parse_format
      obtain rfl : (Segment.values before).length = place := by
        rw [Segment.values, List.length_map, hbefore]
      rw [Segment.values_append_cons] at hrefers hpassed hfailed
      refine ⟨fix, String.ofList fixed, suggested, before, after, moved, hfix, ?_, hsuggestion,
        hreplaces, hreference, hsuggested, hrefers, ⟨_, hfailed⟩, hpassed, hpasses⟩
      rw [hmakes, happly, Option.map_some]

/-- An argument of the wrong type has one fix, which can be made. It replaces only the
specifier that rejects the argument, by one that accepts it, and the rest is checked
as if the specifier had passed from the start. -/
theorem recheck_after_fix (format : String) (arguments : List Signature) (specifier : Specifier)
    (position : UInt32) (expected : Family) (actual : Signature) (span : Span)
    (hformat : Text.byteLength format.toList < 2 ^ 31)
    (h : check format arguments =
      .error ⟨.mismatch specifier position expected actual .incompatible, span⟩) :
    ∃ fix fixed suggested before after moved,
      ((Problem.mismatch specifier position expected actual .incompatible).diagnose span).fixes =
        [fix] ∧
      fix.applyTo? format = some fixed ∧
      actual.suggestion? = some suggested ∧
      Replaces format fixed specifier (specifier.withConversion suggested) span
        before after moved ∧
      positions fixed = positions format ∧
      (specifier.withConversion suggested).problem? position arguments = none ∧
      Rechecked (Segment.values before ++ specifier :: Segment.values after) arguments fixed
        (Segment.specifiers moved) (check fixed arguments) := by
  have hcount : CountFits format :=
    countFits_of_byteLength_lt (Nat.lt_trans hformat (by decide))
  obtain ⟨fix, fixed, suggested, before, after, moved, hfix, hfixed, hsuggestion, hrepairs⟩ :=
    exists_repairs hcount h
  exact ⟨fix, fixed, suggested, before, after, moved, hfix, hfixed, hsuggestion,
    hrepairs.toReplaces, hrepairs.positions_eq hrepairs.reference, hrepairs.passes,
    hrepairs.rechecked hcount⟩

/-- The width and its flag stay, and the relative specifier still has an argument. -/
theorem recheck_after_fix_width :
    ∃ fix fixed,
      ((Problem.mismatch ⟨.implicit, .ofList [.leftJustify], some 8, none, .hex, false⟩ 1 .integral
        ⟨"Ljava/lang/String;"⟩ .incompatible).diagnose ⟨2, 6⟩).fixes = [fix] ∧
      fix.applyTo? "é%-8x|%<s%d" = some fixed ∧
      positions fixed = positions "é%-8x|%<s%d" := by
  obtain ⟨fix, fixed, _, _, _, _, hfix, hfixed, -, -, hpositions, -, -⟩ :=
    recheck_after_fix "é%-8x|%<s%d" [⟨"Ljava/lang/String;"⟩, ⟨"Z"⟩]
      ⟨.implicit, .ofList [.leftJustify], some 8, none, .hex, false⟩ 1 .integral
      ⟨"Ljava/lang/String;"⟩ ⟨2, 6⟩ (by decide) (by decide +kernel)
  exact ⟨fix, fixed, hfix, hfixed, hpositions⟩

end FormatCheck
