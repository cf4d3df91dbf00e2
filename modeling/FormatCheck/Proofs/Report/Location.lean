import FormatCheck.Proofs.Report.Mending

/-! # Where failures point

A failure stands at a range of the format text, which starts with a percent sign unless
arguments are left over. The diagnosis has one label, at this range, and at most one fix,
which changes the text only there. -/

namespace FormatCheck

/-! ## Ranges of failures -/

theorem Segment.mem_specifiers {segments : List (Located Segment)}
    {specifier : Located Specifier} :
    specifier ∈ specifiers segments ↔ ⟨.specifier specifier.value, specifier.span⟩ ∈ segments := by
  induction segments with
  | nil => simp [specifiers]
  | cons segment segments ih =>
      obtain ⟨value, span⟩ := segment
      obtain ⟨found, range⟩ := specifier
      cases value with
      | literal text =>
          have hsame : specifiers (⟨.literal text, span⟩ :: segments) = specifiers segments := rfl
          rw [hsame, ih]
          simp
      | specifier other =>
          rw [specifiers_cons_specifier, List.mem_cons, List.mem_cons, ih]
          simp

/-- What a failure points at, and the text there: the fault of a text, one of its specifiers,
or all of it. -/
inductive PointsAt (format : String) : Located Problem → List Char → Prop where
  | fault {fault : Located Fault} {part : List Char} (hparse : parse format = .error fault)
      (hpercent : part.head? = some '%') : PointsAt format (fault.map .malformed) part
  | missing {segments : List (Located Segment)} {specifier : Located Specifier}
      {reason : Missing} {part : List Char} (hparse : parse format = .ok segments)
      (hmem : specifier ∈ Segment.specifiers segments) (hpercent : part.head? = some '%') :
      PointsAt format ⟨.missing reason, specifier.span⟩ part
  | mismatch {segments : List (Located Segment)} {specifier : Located Specifier}
      {position : UInt32} {expected : Family} {actual : Signature} {reason : Mismatch}
      {part : List Char} (hparse : parse format = .ok segments)
      (hmem : specifier ∈ Segment.specifiers segments) (hpercent : part.head? = some '%') :
      PointsAt format
        ⟨.mismatch specifier.value position expected actual reason, specifier.span⟩ part
  | extra {supplied : Nat} {referenced : UInt32} :
      PointsAt format ⟨.extra supplied referenced, .whole format⟩ format.toList

/-- The range of a specifier holds text that starts with its percent sign. -/
theorem holds_of_mem_specifiers {format : String} {segments : List (Located Segment)}
    {specifier : Located Specifier} (hparse : parse format = .ok segments)
    (hmem : specifier ∈ Segment.specifiers segments) :
    ∃ part, specifier.span.Holds format.toList part ∧ part.head? = some '%' := by
  obtain ⟨chunks, htext, -, rfl⟩ := parse_eq_ok_iff.mp hparse
  obtain ⟨chunk, hvalue, hholds⟩ := Chunk.holds_located [] [] (Segment.mem_specifiers.mp hmem)
  have hpercent := chunk.readFrom_segment
  rw [← hvalue] at hpercent
  exact ⟨chunk.chars, by simpa [htext] using hholds, hpercent⟩

theorem holds_of_error {format : String} {fault : Located Fault}
    (h : parse format = .error fault) :
    ∃ part, fault.span.Holds format.toList part ∧ part.head? = some '%' := by
  obtain ⟨chunks, after, hreached, hstep⟩ := exists_reached_of_error h
  have hfault : (Reading.ofText format).fault? = some fault := by
    rw [hreached.reading_eq (.failed hstep)]
  exact (Reading.holds_of_fault hfault).2

theorem Span.holds_whole (text : String) : (whole text).Holds text.toList text.toList :=
  ⟨[], [], by simp, by simp [whole]⟩

/-- Every failure points at a part of the text. -/
theorem exists_pointsAt {format : String} {arguments : List Signature}
    {problem : Located Problem} (hformat : CountFits format)
    (h : check format arguments = .error problem) :
    ∃ part, problem.span.Holds format.toList part ∧ PointsAt format problem part := by
  have hverdict := verdict_check arguments hformat
  rw [h] at hverdict
  cases hverdict with
  | malformed hparse =>
      obtain ⟨part, hholds, hpercent⟩ := holds_of_error hparse
      exact ⟨part, hholds, .fault hparse hpercent⟩
  | extra _ _ _ _ => exact ⟨format.toList, Span.holds_whole format, .extra⟩
  | failed hparse hfirst =>
      obtain ⟨place, specifier, hat, hfails, -⟩ := hfirst
      have hmem := List.mem_of_getElem? hat
      obtain ⟨part, hholds, hpercent⟩ := holds_of_mem_specifiers hparse hmem
      obtain ⟨value, span⟩ := problem
      refine ⟨part, hholds, ?_⟩
      cases hfails with
      | noPrevious _ _ _ => exact .missing hparse hmem hpercent
      | outOfRange _ _ => exact .missing hparse hmem hpercent
      | mismatch hreads _ _ _ _ _ =>
          -- The specifier that is reported is the one that stands at the range.
          have hvalue := Segment.getElem?_values hat
          obtain rfl := Option.some.inj (hvalue.symm.trans hreads.at_place)
          exact .mismatch hparse hmem hpercent

theorem PointsAt.nonempty {format : String} {problem : Located Problem} {part : List Char}
    (h : PointsAt format problem part) (hholds : problem.span.Holds format.toList part)
    (hextra : ∀ supplied referenced, problem.value ≠ .extra supplied referenced) :
    problem.span.start < problem.span.stop := by
  have hpart : part ≠ [] := by
    cases h with
    | extra => exact absurd rfl (hextra _ _)
    | fault _ hpercent | missing _ _ hpercent | mismatch _ _ hpercent =>
        rintro rfl
        cases hpercent
  obtain ⟨front, back, -, hspan⟩ := hholds
  have hpos := Text.byteLength_pos hpart
  rw [hspan]
  exact Nat.lt_add_of_pos_right hpos

/-! ## Ranges of fixes -/

/-- The range lies in another one. -/
structure Span.Within (inner outer : Span) : Prop where
  start_le : outer.start ≤ inner.start
  forward : inner.start ≤ inner.stop
  stop_le : inner.stop ≤ outer.stop

/-- The problems that have a fix: a specifier that the end of the text cuts off, one that
lacks its `t`, and an argument of the wrong type. -/
inductive Problem.Fixable : Problem → Prop where
  | cutOff : Fixable (.malformed (.unknownConversion none))
  | lacksPrefix {c : Char} (hsuffix : Fault.isDateSuffix c = true) :
      Fixable (.malformed (.unknownConversion (some c)))
  | wrongType {specifier : Specifier} {position : UInt32} {expected : Family}
      {actual : Signature} :
      Fixable (.mismatch specifier position expected actual .incompatible)

/-- The fixes of a problem at a range: none, or one with a single substitution there. -/
inductive Remedy (problem : Problem) (span : Span) : List Fix → Prop where
  | none (hnot : ¬problem.Fixable) : Remedy problem span []
  | one {message snippet : String} {confidence : Confidence} {range : Span}
      (hfixable : problem.Fixable) (hwithin : range.Within span) :
      Remedy problem span [.replace message confidence range snippet]

namespace Remedy

variable {problem : Problem} {span : Span} {fixes : List Fix}

theorem length_le_one (h : Remedy problem span fixes) : fixes.length ≤ 1 := by
  cases h with
  | none _ => exact Nat.zero_le 1
  | one _ _ => exact Nat.le_refl 1

theorem within (h : Remedy problem span fixes) :
    ∀ fix ∈ fixes, ∃ substitution, fix.substitutions = [substitution] ∧
      substitution.span.Within span := by
  intro fix hfix
  cases h with
  | none _ => cases hfix
  | one _ hwithin =>
      obtain rfl := List.mem_singleton.mp hfix
      exact ⟨_, rfl, hwithin⟩

theorem ne_nil_iff (h : Remedy problem span fixes) : fixes ≠ [] ↔ problem.Fixable := by
  cases h with
  | none hnot => simp [hnot]
  | one hfixable _ => simp [hfixable]

end Remedy

theorem Span.within_self {span : Span} (h : span.start < span.stop) : span.Within span :=
  ⟨Nat.le_refl _, Nat.le_of_lt h, Nat.le_refl _⟩

/-- A character that is found unknown stands at the end of the range of the fault. -/
theorem utf8Size_le_of_unknown {format : String} {fault : Located Fault} {c : Char}
    (h : parse format = .error fault) (hfault : fault.value = .unknownConversion (some c)) :
    fault.span.start + c.utf8Size ≤ fault.span.stop := by
  obtain ⟨chunks, after, hreached, hstep⟩ := exists_reached_of_error h
  obtain ⟨opening, rest, -, hspan, -⟩ := hreached.exists_of_unknown hstep hfault
  simp only [hspan, Option.toList_some, Text.byteLength_cons, Text.byteLength_nil]
  omega

theorem remedy_of_fault {format : String} {fault : Located Fault}
    (h : parse format = .error fault) (hspan : fault.span.start < fault.span.stop) :
    Remedy (.malformed fault.value) fault.span (fault.value.fix? fault.span).toList := by
  obtain ⟨value, span⟩ := fault
  rcases value.fix?_cases span with hnone | rfl | ⟨c, rfl, hsuffix⟩
  · rw [hnone]
    apply Remedy.none
    intro hfixable
    cases hfixable with
    | cutOff => cases hnone
    | lacksPrefix hsuffix =>
        rw [Fault.fix?, if_pos hsuffix] at hnone
        cases hnone
  · exact .one .cutOff (Span.within_self hspan)
  · have hsize : span.start + c.utf8Size ≤ span.stop := utf8Size_le_of_unknown h rfl
    rw [Fault.fix?, if_pos hsuffix]
    refine .one (.lacksPrefix hsuffix) ⟨?_, Nat.le_refl _, Nat.sub_le _ _⟩
    simp only [Span.point]
    omega

theorem remedy_of_mismatch {actual : Signature} {expected : Family} {reason : Mismatch}
    {span : Span} (h : actual.mismatch? expected = some reason) (hspan : span.start < span.stop)
    (specifier : Specifier) (position : UInt32) :
    Remedy (.mismatch specifier position expected actual reason) span
      (Problem.fixes (.mismatch specifier position expected actual reason) span) := by
  cases reason with
  | array =>
      apply Remedy.none
      intro hfixable
      cases hfixable
  | invalid =>
      have hnone : specifier.fix? actual span = none := by
        rw [Specifier.fix?, Signature.suggestion?_of_invalid h, Option.map_none]
      change Remedy _ span (specifier.fix? actual span).toList
      rw [hnone]
      apply Remedy.none
      intro hfixable
      cases hfixable
  | incompatible =>
      obtain ⟨suggested, _, hsuggestion, -⟩ := exists_suggestion h
      change Remedy _ span (specifier.fix? actual span).toList
      rw [Specifier.fix?, hsuggestion]
      exact .one .wrongType (Span.within_self hspan)

/-- Every failure has one fix at its range if it is fixable, and none otherwise. -/
theorem remedy_of_check {format : String} {arguments : List Signature}
    {problem : Located Problem} (hformat : CountFits format)
    (h : check format arguments = .error problem) :
    Remedy problem.value problem.span (problem.value.diagnose problem.span).fixes := by
  obtain ⟨part, hholds, hpoints⟩ := exists_pointsAt hformat h
  have hnonempty := hpoints.nonempty hholds
  cases hpoints with
  | missing _ _ _ => exact .none nofun
  | extra => exact .none nofun
  | fault hparse _ => exact remedy_of_fault hparse (hnonempty nofun)
  | mismatch _ _ _ =>
      obtain ⟨segments, place, -, -, hfails, -⟩ := exists_place_of_mismatch hformat h
      cases hfails with
      | mismatch _ _ _ _ _ hrejects => exact remedy_of_mismatch hrejects (hnonempty nofun) _ _

/-! ## Diagnoses -/

/-- A diagnostic of a failure points at the part of the text that the failure is about. -/
structure Locates (format : String) (problem : Located Problem) (diagnostic : Diagnostic) :
    Prop where
  code_eq : diagnostic.code = problem.value.code
  label : ∃ message, diagnostic.labels = [⟨problem.span, message⟩]
  primary : diagnostic.primarySpan? = some problem.span
  points : ∃ part, problem.span.Holds format.toList part ∧ PointsAt format problem part
  nonempty : (∀ supplied referenced, problem.value ≠ .extra supplied referenced) →
    problem.span.start < problem.span.stop
  fixes_le_one : diagnostic.fixes.length ≤ 1
  fixes_within : ∀ fix ∈ diagnostic.fixes, ∃ substitution,
    fix.substitutions = [substitution] ∧ substitution.span.Within problem.span
  fixes_iff : diagnostic.fixes ≠ [] ↔ problem.value.Fixable

/-- Every failure points into the format text, and its fix, if it has one, changes the text
there. -/
theorem diagnose_locates (format : String) (arguments : List Signature)
    (problem : Located Problem) (hformat : Text.byteLength format.toList < UInt32.size)
    (h : check format arguments = .error problem) :
    Locates format problem (problem.value.diagnose problem.span) := by
  have hcount := countFits_of_byteLength_lt hformat
  obtain ⟨part, hholds, hpoints⟩ := exists_pointsAt hcount h
  have hremedy := remedy_of_check hcount h
  exact ⟨rfl, ⟨_, rfl⟩, rfl, ⟨part, hholds, hpoints⟩, hpoints.nonempty hholds,
    hremedy.length_le_one, hremedy.within, hremedy.ne_nil_iff⟩

/-- The fault stands behind a character of two bytes, and its fix goes in front of the `Y`. -/
theorem diagnose_locates_suffix :
    check "é%-5Y✓" [⟨"J"⟩] = .error ⟨.malformed (.unknownConversion (some 'Y')), 2, 6⟩ ∧
      Locates "é%-5Y✓" ⟨.malformed (.unknownConversion (some 'Y')), 2, 6⟩
        ((Problem.malformed (.unknownConversion (some 'Y'))).diagnose ⟨2, 6⟩) := by
  have hcheck : check "é%-5Y✓" [⟨"J"⟩] =
      .error ⟨.malformed (.unknownConversion (some 'Y')), 2, 6⟩ := by
    decide +kernel
  exact ⟨hcheck, diagnose_locates _ _ _ (by decide) hcheck⟩

end FormatCheck
