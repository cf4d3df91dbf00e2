import FormatCheck.Proofs.Format.Shortest
import FormatCheck.Proofs.Format.Tiling
import FormatCheck.Proofs.Report.Completion
import FormatCheck.Proofs.Report.Repair

/-! # Mending a text

A text is mended by fixing what fails first, over and over. Faults of the text are fixed
from left to right, and no fix brings back a percent sign that was passed. Once the text
is well formed it stays so, and each further fix makes one more specifier pass. -/

namespace FormatCheck

/-! ## Rounds -/

/-- The first fix for what fails first, if there is one. -/
def firstFix? (format : String) (arguments : List Signature) : Option Fix :=
  match check format arguments with
  | .ok () => none
  | .error problem => (problem.value.diagnose problem.span).fixes.head?

/-- Makes the first fix as long as there is one, and gives all texts in order. Fails
when a fix cannot be made, and when there is still one after so many rounds. -/
def mend? (arguments : List Signature) (rounds : Nat) (format : String) : Option (List String) :=
  match firstFix? format arguments, rounds with
  | none, _ => some [format]
  | some _, 0 => none
  | some fix, rounds + 1 => do
      let fixed ← fix.applyTo? format
      let texts ← mend? arguments rounds fixed
      return format :: texts

/-- There is a fix, it can be made, and it makes the text at most one byte longer. -/
structure FixedBy (arguments : List Signature) (format : String) (fix : Fix) (fixed : String) :
    Prop where
  found : firstFix? format arguments = some fix
  made : fix.applyTo? format = some fixed
  grows : Text.byteLength fixed.toList ≤ Text.byteLength format.toList + 1

theorem FixedBy.of_replace {arguments : List Signature} {format message snippet : String}
    {confidence : Confidence} {span : Span} {fixed : List Char}
    (hfound : firstFix? format arguments = some (.replace message confidence span snippet))
    (hmade : Substitution.applyTo? ⟨span, snippet⟩ format.toList = some fixed)
    (hgrows : Text.byteLength fixed ≤ Text.byteLength format.toList + 1) :
    FixedBy arguments format (.replace message confidence span snippet) (String.ofList fixed) where
  found := hfound
  made := by rw [Fix.applyTo?_replace, hmade, Option.map_some]
  grows := by rwa [String.toList_ofList]

/-- Mending ends in a text without a fix, and the bytes of each text on the way can be
counted in 32 bits. -/
structure Mends (arguments : List Signature) (rounds : Nat) (format : String)
    (texts : List String) (final : String) : Prop where
  run : mend? arguments rounds format = some (texts ++ [final])
  length_le : texts.length ≤ rounds
  fits : ∀ text ∈ texts ++ [final], Text.byteLength text.toList < UInt32.size
  settled : firstFix? final arguments = none

theorem Mends.stop {arguments : List Signature} {format : String} (rounds : Nat)
    (hformat : Text.byteLength format.toList < UInt32.size)
    (h : firstFix? format arguments = none) : Mends arguments rounds format [] format where
  run := by simp [mend?, h]
  length_le := Nat.zero_le _
  fits := by simpa using hformat
  settled := h

theorem Mends.next {arguments : List Signature} {rounds : Nat} {format fixed final : String}
    {fix : Fix} {texts : List String} (h : Mends arguments rounds fixed texts final)
    (hformat : Text.byteLength format.toList < UInt32.size)
    (hfixed : FixedBy arguments format fix fixed) :
    Mends arguments (rounds + 1) format (format :: texts) final where
  run := by simp [mend?, hfixed.found, hfixed.made, h.run]
  length_le := Nat.succ_le_succ h.length_le
  fits := by
    intro text htext
    rcases List.mem_cons.mp htext with rfl | htext
    · exact hformat
    · exact h.fits text htext
  settled := h.settled

/-! ## Which failures have a fix -/

theorem Fault.fix?_cases (fault : Fault) (span : Span) :
    fault.fix? span = none ∨ fault = .unknownConversion none ∨
      ∃ c, fault = .unknownConversion (some c) ∧ isDateSuffix c = true := by
  cases fault with
  | unknownConversion found =>
      cases found with
      | none => exact .inr (.inl rfl)
      | some c =>
          by_cases hc : isDateSuffix c = true
          · exact .inr (.inr ⟨c, rfl, hc⟩)
          · exact .inl (if_neg hc)
  | _ => exact .inl rfl

theorem Signature.suggestion?_of_invalid {actual : Signature} {expected : Family}
    (h : actual.mismatch? expected = some .invalid) : actual.suggestion? = none := by
  cases htype : actual.type? with
  | none =>
      rw [suggestion?, htype]
      rfl
  | some type =>
      simp only [mismatch?, htype] at h
      split at h
      · cases h
      · split at h <;> cases h

theorem firstFix?_of_parse_error {format : String} {fault : Located Fault}
    (arguments : List Signature) (h : parse format = .error fault) :
    firstFix? format arguments = fault.value.fix? fault.span := by
  rw [firstFix?, check, h]
  cases hfix : fault.value.fix? fault.span <;>
    simp [Located.map, Problem.diagnose, Problem.fixes, hfix]

/-- Only a wrong type has a fix when the text is well formed. -/
theorem exists_mismatch_of_firstFix? {format : String} {arguments : List Signature} {fix : Fix}
    {segments : List (Located Segment)} (hformat : CountFits format)
    (hparse : parse format = .ok segments) (h : firstFix? format arguments = some fix) :
    ∃ specifier position expected actual span, check format arguments =
      .error ⟨.mismatch specifier position expected actual .incompatible, span⟩ := by
  have hverdict := verdict_check arguments hformat
  rw [firstFix?] at h
  generalize check format arguments = result at h hverdict
  cases hverdict with
  | malformed herror => cases hparse.symm.trans herror
  | passed _ _ _ _ | extra _ _ _ _ => cases h
  | @failed _ problem _ hfirst =>
      obtain ⟨place, specifier, -, hfails, -⟩ := hfirst
      obtain ⟨value, span⟩ := problem
      cases hfails with
      | noPrevious _ _ _ | outOfRange _ _ => cases h
      | @mismatch _ _ _ _ _ reason _ _ _ _ _ hrejects =>
          cases reason with
          | incompatible => exact ⟨_, _, _, _, _, rfl⟩
          | array => cases h
          | invalid =>
              simp [Problem.diagnose, Problem.fixes, Specifier.fix?,
                Signature.suggestion?_of_invalid hrejects] at h

/-! ## Lengths -/

namespace Specifier

theorem marks_withConversion_subset (specifier : Specifier) (conversion : Conversion) :
    (specifier.withConversion conversion).marks ⊆ specifier.marks := by
  intro mark hmark
  rcases List.mem_append.mp hmark with hmark | hmark
  · exact List.mem_append_left _ hmark
  · obtain ⟨flag, hflag, rfl⟩ := List.mem_map.mp hmark
    refine List.mem_append_right _ (List.mem_map_of_mem ?_)
    rw [Flags.mem_toList] at hflag ⊢
    cases flag with
    | leftJustify => exact (Bool.and_eq_true _ _ ▸ hflag).2
    | _ => cases hflag

/-- Another conversion can make the canonical text one character longer. -/
theorem length_withConversion_le {specifier : Specifier} {conversion : Conversion}
    (h : specifier.Writable) (hother : (specifier.withConversion conversion).Writable) :
    ((specifier.withConversion conversion).spelling hother).chars.length ≤
      (specifier.spelling h).chars.length + 1 := by
  have hmarks := (specifier.withConversion conversion).nodup_marks.length_le_of_subset
    (specifier.marks_withConversion_subset conversion)
  have hopening : ((specifier.withConversion conversion).opening hother).chars.length ≤
      (specifier.opening h).chars.length := by
    rw [Opening.length_chars, Opening.length_chars]
    exact Nat.add_le_add (Nat.add_le_add_right (Nat.add_le_add_left hmarks _) _) (Nat.zero_le _)
  have hlong : (conversion.written false).length ≤
      (specifier.conversion.written specifier.uppercase).length + 1 := by
    have hshort := (specifier.conversion.length_written specifier.uppercase).1
    have hlong := (conversion.length_written false).2
    omega
  rw [Spelling.chars, Spelling.chars, List.length_append, List.length_append, Nat.add_assoc]
  exact Nat.add_le_add hopening hlong

end Specifier

/-- The replacement of a written specifier has at most one byte more than its range. -/
theorem byteLength_withConversion_le {format : String} {segments : List (Located Segment)}
    {specifier : Specifier} {conversion : Conversion} {span : Span}
    (hparse : parse format = .ok segments) (hmem : ⟨.specifier specifier, span⟩ ∈ segments)
    (hother : (specifier.withConversion conversion).Writable) :
    Text.byteLength (specifier.withConversion conversion).chars ≤ span.length + 1 := by
  obtain ⟨chunks, -, -, rfl⟩ := parse_eq_ok_iff.mp hparse
  obtain ⟨chunk, hchunk, front, -, -, hspan⟩ := Chunk.holds_located [] [] hmem
  cases chunk with
  | plain _ _ _ => cases hchunk
  | specifier spelling hvalid =>
      obtain rfl : spelling.specifier = specifier := Segment.specifier.inj hchunk.symm
      have hwritable := Spelling.writable hvalid
      have hcanonical := spelling.length_chars_le hwritable
      have hreplaced := Specifier.length_withConversion_le hwritable hother
      have hlength : span.length = Text.byteLength (Chunk.specifier spelling hvalid).chars := by
        obtain rfl : span = _ := hspan
        exact Nat.add_sub_cancel_left _ _
      rw [hlength, Chunk.chars, ← Specifier.chars_spelling _ hother, Text.byteLength_cons,
        Text.byteLength_cons, Spelling.byteLength_chars, Spelling.byteLength_chars]
      omega

/-- A wrong type has a fix, which repairs the specifier that rejects its argument. -/
theorem exists_fixedBy_of_mismatch {format : String} {arguments : List Signature}
    {specifier : Specifier} {position : UInt32} {expected : Family} {actual : Signature}
    {span : Span} (hformat : CountFits format)
    (h : check format arguments =
      .error ⟨.mismatch specifier position expected actual .incompatible, span⟩) :
    ∃ fix fixed replacement before after moved, FixedBy arguments format fix fixed ∧
      Repairs format fixed arguments specifier replacement position span before after moved := by
  obtain ⟨fix, fixed, suggested, before, after, moved, hfixes, hmade, hsuggestion, hrepairs⟩ :=
    exists_repairs hformat h
  refine ⟨fix, fixed, _, before, after, moved, ⟨?_, hmade, ?_⟩, hrepairs⟩
  · rw [firstFix?, h]
    simp only [hfixes, List.head?_cons]
  · obtain ⟨_, hfixes', hmakes⟩ := exists_fix hsuggestion specifier position expected span
    obtain ⟨rfl, -⟩ := List.cons.inj (hfixes.symm.trans hfixes')
    rw [hmakes, Option.map_eq_some_iff] at hmade
    obtain ⟨chars, happly, rfl⟩ := hmade
    have hother : (specifier.withConversion suggested).Writable :=
      writable_of_parse hrepairs.parse_fixed (by simp [Segment.values_append_cons])
    have hlength := byteLength_withConversion_le hrepairs.parse_format
      (List.mem_append_right _ List.mem_cons_self) hother
    have hbytes := Substitution.byteLength_of_applyTo? happly
    simp only [Specifier.text, String.toList_ofList] at hbytes ⊢
    omega

/-! ## Rounds that are left -/

/-- So many rounds are enough for a text: it has no fix; or it is well formed, and so many
specifiers have not passed; or each percent sign needs one round to be passed by reading,
and one to pass the check. -/
inductive Pending (arguments : List Signature) (format : String) (rounds : Nat) : Prop where
  | settled (hfix : firstFix? format arguments = none)
  | wellFormed {segments : List (Located Segment)} {place : Nat}
      (hparse : parse format = .ok segments)
      (hpassed : PassesBefore (Segment.values segments) arguments place)
      (hrounds : (Segment.values segments).length ≤ place + rounds)
  | reached {chunks : List Chunk} {after : Input} (hreached : Reached format chunks after)
      (hrounds : format.toList.count '%' + after.rest.count '%' ≤ rounds)

theorem passesBefore_zero (specifiers : List Specifier) (arguments : List Signature) :
    PassesBefore specifiers arguments 0 :=
  fun _ hlt => absurd hlt (Nat.not_lt_zero _)

/-- One round: there is no fix, or one that leaves one round less. -/
inductive Round (arguments : List Signature) (format : String) : Nat → Prop where
  | settled {rounds : Nat} (hfix : firstFix? format arguments = none) :
      Round arguments format rounds
  | fixed {rounds : Nat} {fix : Fix} {fixed : String} (hfixed : FixedBy arguments format fix fixed)
      (hpending : Pending arguments fixed rounds) : Round arguments format (rounds + 1)

/-- A fix for a wrong type makes one more specifier pass. -/
theorem Round.of_wellFormed {arguments : List Signature} {format : String} {rounds place : Nat}
    {segments : List (Located Segment)}
    (hformat : Text.byteLength format.toList < UInt32.size) (hparse : parse format = .ok segments)
    (hpassed : PassesBefore (Segment.values segments) arguments place)
    (hrounds : (Segment.values segments).length ≤ place + rounds) :
    Round arguments format rounds := by
  have hcount := countFits_of_byteLength_lt hformat
  cases hfix : firstFix? format arguments with
  | none => exact .settled hfix
  | some fix =>
      obtain ⟨specifier, position, expected, actual, span, hcheck⟩ :=
        exists_mismatch_of_firstFix? hcount hparse hfix
      obtain ⟨fix, fixed, replacement, before, after, moved, hfixed, hrepairs⟩ :=
        exists_fixedBy_of_mismatch hcount hcheck
      cases hparse.symm.trans hrepairs.parse_format
      rw [Segment.values_append_cons] at hpassed hrounds
      obtain ⟨problem, hfails⟩ := hrepairs.fails
      have hplace : place ≤ (Segment.values before).length := by
        by_contra hlt
        exact hpassed _ (Nat.lt_of_not_le hlt) problem hfails
      -- Nothing up to the repaired specifier fails any more.
      have hrepaired : PassesBefore (Segment.values before ++ replacement :: Segment.values after)
          arguments ((Segment.values before).length + 1) := by
        intro earlier hlt problem hfails
        have hbehind := hrepairs.lt_of_failsAt hfails
        omega
      rw [← hrepairs.values_fixed] at hrepaired
      simp only [List.length_append, List.length_cons] at hrounds
      cases rounds with
      | zero => omega
      | succ rounds =>
          refine .fixed hfixed (.wellFormed hrepairs.parse_fixed hrepaired ?_)
          rw [hrepairs.values_fixed, List.length_append, List.length_cons]
          omega

/-- A fix for a fault makes reading pass one more percent sign, or leaves no fault that
has a fix. -/
theorem Round.of_failed {arguments : List Signature} {format : String} {rounds : Nat}
    {chunks : List Chunk} {after : Input} {fault : Located Fault}
    (hreached : Reached format chunks after) (hstep : after.step = .failed fault)
    (hrounds : format.toList.count '%' + after.rest.count '%' ≤ rounds) :
    Round arguments format rounds := by
  have hfirst := firstFix?_of_parse_error arguments (hreached.parse_eq_error hstep)
  -- The fault starts at a percent sign that is still ahead, so a round is left.
  obtain ⟨unread, -, hunread, -, -⟩ := Input.exists_of_failed hstep
  rw [hunread, List.count_cons_self] at hrounds
  cases rounds with
  | zero => omega
  | succ rounds =>
      rcases fault.value.fix?_cases fault.span with hnone | hcut | ⟨c, hfound, hsuffix⟩
      · exact .settled (hfirst.trans hnone)
      · obtain ⟨fixed, happly, hbytes, hparse⟩ := hreached.escape hstep hcut
        have hlength := hreached.length_values_le hstep .percentSign
          ⟨fault.span.start, Text.byteLength fixed⟩
        rw [hcut, Fault.fix?] at hfirst
        exact .fixed (.of_replace hfirst happly hbytes)
          (.wellFormed hparse (passesBefore_zero _ _) (by omega))
      · obtain ⟨fixed, happly, hbytes, hcount, hnext⟩ := hreached.complete hstep hfound hsuffix
        rw [hfound, Fault.fix?, if_pos hsuffix] at hfirst
        refine .fixed (.of_replace hfirst happly (Nat.le_of_eq hbytes)) ?_
        rcases hnext with ⟨chunks', after', hreached', hless⟩ | ⟨fault', hparse, hother⟩
        · refine .reached hreached' ?_
          rw [String.toList_ofList, hcount]
          rw [hunread, List.count_cons_self] at hless
          omega
        · refine .settled ?_
          rw [firstFix?_of_parse_error arguments hparse]
          rcases fault'.value.fix?_cases fault'.span with hnone | hcut | ⟨c, hfound, -⟩
          · exact hnone
          · exact absurd hcut (hother none)
          · exact absurd hfound (hother (some c))

theorem Pending.round {arguments : List Signature} {format : String} {rounds : Nat}
    (h : Pending arguments format rounds)
    (hformat : Text.byteLength format.toList < UInt32.size) : Round arguments format rounds := by
  cases h with
  | settled hfix => exact .settled hfix
  | wellFormed hparse hpassed hrounds => exact .of_wellFormed hformat hparse hpassed hrounds
  | @reached chunks after hreached hrounds =>
      obtain ⟨more, stop, fault?, hstop, hreads, hstopped⟩ := hreached.exists_stopped
      have hcount : after.rest.count '%' = (Chunk.text more).count '%' + stop.rest.count '%' := by
        rw [hreads.1, List.count_append]
      cases hstopped with
      | finished hrest =>
          have hlength := Chunk.length_values_le 0 (chunks ++ more)
          have hle : (Chunk.text (chunks ++ more)).count '%' ≤ format.toList.count '%' := by
            rw [hstop.toList_eq, List.count_append]
            omega
          exact .of_wellFormed hformat (hstop.parse_eq_ok hrest) (passesBefore_zero _ _) (by omega)
      | failed hstep => exact .of_failed hstop hstep (by omega)

/-- A whole run: mending ends within the rounds that are left. -/
theorem Pending.exists_mends {arguments : List Signature} {format : String} {rounds : Nat}
    (h : Pending arguments format rounds)
    (hformat : Text.byteLength format.toList + rounds < UInt32.size) :
    ∃ texts final, Mends arguments rounds format texts final := by
  -- A round adds at most one byte, so the bytes and the rounds left together do not grow.
  induction rounds generalizing format with
  | zero =>
      cases h.round hformat with
      | settled hfix => exact ⟨[], format, .stop 0 hformat hfix⟩
  | succ rounds ih =>
      have hsize : Text.byteLength format.toList < UInt32.size := by omega
      cases h.round hsize with
      | settled hfix => exact ⟨[], format, .stop _ hsize hfix⟩
      | fixed hfixed hpending =>
          have hgrows := hfixed.grows
          obtain ⟨texts, final, hmends⟩ := ih hpending (by omega)
          exact ⟨format :: texts, final, hmends.next hsize hfixed⟩

/-! ## The end -/

theorem Problem.exists_of_code {problem : Problem} (h : problem.code = .incompatibleType) :
    ∃ specifier position expected actual,
      problem = .mismatch specifier position expected actual .incompatible := by
  cases problem with
  | malformed fault => cases fault <;> cases h
  | missing reason => cases reason <;> cases h
  | mismatch specifier position expected actual reason =>
      cases reason with
      | incompatible => exact ⟨specifier, position, expected, actual, rfl⟩
      | array | invalid => cases h
  | extra _ _ => cases h

/-- Neither a wrong type nor a specifier that is cut off is left without a fix. -/
theorem check_of_settled {format : String} {arguments : List Signature}
    (hformat : CountFits format) (h : firstFix? format arguments = none) :
    check format arguments = .ok () ∨ ∃ problem, check format arguments = .error problem ∧
      (problem.value.diagnose problem.span).fixes = [] ∧
      problem.value.code ≠ .incompatibleType ∧
      problem.value ≠ .malformed (.unknownConversion none) := by
  cases hcheck : check format arguments with
  | ok result => exact .inl rfl
  | error problem =>
      have hfixes : (problem.value.diagnose problem.span).fixes = [] := by
        simpa [firstFix?, hcheck] using h
      refine .inr ⟨problem, rfl, hfixes, ?_, ?_⟩
      · intro hcode
        obtain ⟨value, span⟩ := problem
        obtain ⟨specifier, position, expected, actual, rfl⟩ := Problem.exists_of_code hcode
        obtain ⟨_, _, _, _, _, _, hfixed, -⟩ := exists_fixedBy_of_mismatch hformat hcheck
        cases h.symm.trans hfixed.found
      · intro hcut
        rw [hcut] at hfixes
        cases hfixes

/-- Mending ends after at most two rounds for each percent sign. Each fix on the way can be
made, and the last text passes or has no fix. It is then neither a wrong type nor
a specifier that is cut off that fails. -/
theorem mending_ends (format : String) (arguments : List Signature)
    (hformat : Text.byteLength format.toList < 2 ^ 30) :
    ∃ texts final, Mends arguments (2 * format.toList.count '%') format texts final ∧
      (check final arguments = .ok () ∨ ∃ problem, check final arguments = .error problem ∧
        (problem.value.diagnose problem.span).fixes = [] ∧
        problem.value.code ≠ .incompatibleType ∧
        problem.value ≠ .malformed (.unknownConversion none)) := by
  have hpercents : format.toList.count '%' ≤ Text.byteLength format.toList :=
    Nat.le_trans List.count_le_length (Text.length_le_byteLength _)
  have hsize : UInt32.size = 4 * 2 ^ 30 := rfl
  have hpending : Pending arguments format (2 * format.toList.count '%') :=
    .reached (.start format) (Nat.le_of_eq (Nat.two_mul _).symm)
  obtain ⟨texts, final, hmends⟩ := hpending.exists_mends (by omega)
  have hfinal : Text.byteLength final.toList < UInt32.size := hmends.fits final (by simp)
  exact ⟨texts, final, hmends,
    check_of_settled (countFits_of_byteLength_lt hfinal) hmends.settled⟩

/-- The missing `t`, the percent sign and the wrong type are fixed one after the other. -/
theorem mending_ends_after_three :
    ∃ texts final, texts ++ [final] = ["%Y%", "%tY%", "%tY%%", "%s%%"] ∧
      Mends [⟨"Ljava/lang/String;"⟩] 4 "%Y%" texts final := by
  obtain ⟨texts, final, hmends, -⟩ :=
    mending_ends "%Y%" [⟨"Ljava/lang/String;"⟩] (by decide)
  have hsuffix : FixedBy [⟨"Ljava/lang/String;"⟩] "%Y%"
      (.replace "add the `t` prefix" .tentative (.point 1) "t") "%tY%" :=
    .of_replace (by decide +kernel)
      (@Substitution.applyTo?_of_append ⟨.point 1, "t"⟩ ['%'] [] ['Y', '%'] rfl) (by decide)
  have hcut : FixedBy [⟨"Ljava/lang/String;"⟩] "%tY%"
      (.replace "escape the percent sign" .certain ⟨3, 4⟩ "%%") "%tY%%" :=
    .of_replace (by decide +kernel)
      (@Substitution.applyTo?_of_append ⟨⟨3, 4⟩, "%%"⟩ ['%', 't', 'Y'] ['%'] [] rfl) (by decide)
  have htype : FixedBy [⟨"Ljava/lang/String;"⟩] "%tY%%"
      (.replace "use `%s` to format java.lang.String" .tentative ⟨0, 3⟩ "%s") "%s%%" :=
    .of_replace (by decide +kernel)
      (@Substitution.applyTo?_of_append ⟨⟨0, 3⟩, "%s"⟩ [] ['%', 't', 'Y'] ['%', '%'] rfl) (by decide)
  have hend : Mends [⟨"Ljava/lang/String;"⟩] 1 "%s%%" [] "%s%%" :=
    .stop 1 (by decide) (by decide +kernel)
  have hrun := ((hend.next (by decide) htype).next (by decide) hcut).next (by decide) hsuffix
  exact ⟨texts, final, Option.some.inj (hmends.run.symm.trans hrun.run), hmends⟩

end FormatCheck
