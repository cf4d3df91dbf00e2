import FormatCheck.Proofs.Report.Mending

/-! # The fix that is certain

Only a specifier that the end of the text cuts off has a fix that can be made without
asking. It replaces what is left of the specifier by an escaped percent sign, and the text
is then well formed. -/

namespace FormatCheck

/-! ## Fixes to ask about -/

theorem Specifier.confidence_of_fix? {specifier : Specifier} {actual : Signature} {span : Span}
    {fix : Fix} (h : specifier.fix? actual span = some fix) : fix.confidence = .tentative := by
  obtain ⟨suggested, -, rfl⟩ := Option.map_eq_some_iff.mp h
  rfl

theorem Fault.eq_of_certain {fault : Fault} {span : Span} {fix : Fix}
    (h : fault.fix? span = some fix) (hcertain : fix.confidence = .certain) :
    fault = .unknownConversion none := by
  rcases fault.fix?_cases span with hnone | hcut | ⟨c, rfl, hsuffix⟩
  · cases hnone.symm.trans h
  · exact hcut
  · rw [fix?, if_pos hsuffix] at h
    cases h
    cases hcertain

/-- No other problem has a fix that is certain. -/
theorem Problem.eq_of_certain {problem : Problem} {span : Span} {fix : Fix}
    (h : fix ∈ problem.fixes span) (hcertain : fix.confidence = .certain) :
    problem = .malformed (.unknownConversion none) := by
  cases problem with
  | malformed fault =>
      have hfix : fault.fix? span = some fix := Option.mem_toList.mp h
      rw [Fault.eq_of_certain hfix hcertain]
  | missing _ | extra _ _ => cases h
  | mismatch specifier position expected actual reason =>
      cases reason with
      | array => cases h
      | incompatible | invalid =>
          have hfix : specifier.fix? actual span = some fix := Option.mem_toList.mp h
          rw [Specifier.confidence_of_fix? hfix] at hcertain
          cases hcertain

/-! ## The escaped percent sign -/

/-- A scanner gives the segments that were passed, and then the fault. -/
theorem Reached.next_after {format : String} {chunks : List Chunk} {after : Input}
    {fault : Located Fault} (h : Reached format chunks after)
    (hstep : after.step = .failed fault) (requests : Nat) :
    ((Scanner.ofText format).after requests).next.1 =
      ((Chunk.located 0 chunks).map Except.ok ++ [.error fault])[requests]? := by
  have hreading : (Input.ofText format).read = ⟨Chunk.located 0 chunks, some fault⟩ :=
    h.reading_eq (.failed hstep)
  rw [Scanner.ofText, Scanner.next_after, hreading]
  rfl

/-- The one fix of a specifier that is cut off is certain, and can be made. All that a scanner
gives before the fault is read from the new text too, and behind it an escaped percent sign
up to the end. No other failure has a fix that is certain. -/
theorem escape_is_certain :
    (∀ (format : String) (fault : Located Fault), parse format = .error fault →
      fault.value = .unknownConversion none →
      ∃ fix fixed segments,
        ((Problem.malformed fault.value).diagnose fault.span).fixes = [fix] ∧
        fix.confidence = .certain ∧
        fix.applyTo? format = some fixed ∧
        (∀ requests, ((Scanner.ofText format).after requests).next.1 =
          (segments.map Except.ok ++ [.error fault])[requests]?) ∧
        parse fixed = .ok (segments ++
          [⟨.specifier .percentSign, fault.span.start, Text.byteLength fixed.toList⟩])) ∧
    ∀ (format : String) (arguments : List Signature) (problem : Located Problem) (fix : Fix),
      check format arguments = .error problem →
      fix ∈ (problem.value.diagnose problem.span).fixes → fix.confidence = .certain →
      problem.value = .malformed (.unknownConversion none) := by
  constructor
  · intro format fault hparse hcut
    obtain ⟨chunks, after, hreached, hstep⟩ := exists_reached_of_error hparse
    obtain ⟨fixed, happly, -, hfixed⟩ := hreached.escape hstep hcut
    refine ⟨.replace "escape the percent sign" .certain fault.span "%%", String.ofList fixed,
      Chunk.located 0 chunks, ?_, rfl, ?_, hreached.next_after hstep, ?_⟩
    · rw [hcut]
      rfl
    · rw [Fix.applyTo?_replace, happly, Option.map_some]
    · rw [hfixed, String.toList_ofList]
  · intro format arguments problem fix _ hfix hcertain
    exact Problem.eq_of_certain hfix hcertain

/-- What is cut off may hold an index, a flag and a width. The fix of a wrong type is not
certain. -/
theorem escape_is_certain_width :
    (∃ fix fixed segments,
      ((Problem.malformed (.unknownConversion none)).diagnose ⟨4, 9⟩).fixes = [fix] ∧
      fix.applyTo? "é%d%2$-7" = some fixed ∧
      parse fixed = .ok (segments ++
        [⟨.specifier .percentSign, 4, Text.byteLength fixed.toList⟩])) ∧
    ∀ fix ∈ ((Problem.mismatch ⟨.implicit, .empty, none, none, .decimal, false⟩ 1 .integral
        ⟨"Z"⟩ .incompatible).diagnose ⟨0, 2⟩).fixes, fix.confidence ≠ .certain := by
  obtain ⟨hescape, hothers⟩ := escape_is_certain
  constructor
  · obtain ⟨fix, fixed, segments, hfixes, -, hmade, -, hparse⟩ :=
      hescape "é%d%2$-7" ⟨.unknownConversion none, 4, 9⟩ (by decide +kernel) rfl
    exact ⟨fix, fixed, segments, hfixes, hmade, hparse⟩
  · intro fix hfix hcertain
    have hcheck : check "%d" [⟨"Z"⟩] =
        .error ⟨.mismatch ⟨.implicit, .empty, none, none, .decimal, false⟩ 1 .integral
          ⟨"Z"⟩ .incompatible, 0, 2⟩ := by
      decide +kernel
    cases hothers "%d" [⟨"Z"⟩] _ fix hcheck hfix hcertain

end FormatCheck
