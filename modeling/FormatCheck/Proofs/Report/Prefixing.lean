import FormatCheck.Proofs.Report.Mending

/-! # The missing `t`

A date/time suffix that stands where a conversion is due gets its `t`. The text is then read
as before up to the specifier, and the specifier with all that is written in it. It passes
unless it has a precision or a flag that dates do not take, or is justified without a width. -/

namespace FormatCheck

/-! ## Rules for dates -/

namespace Specifier

/-- What the rules ask of a date/time specifier: no precision, no flag but left justification,
and that only beside a width. -/
structure SuitsDate (specifier : Specifier) : Prop where
  precision : specifier.precision = none
  flags : ∀ flag, specifier.flags.contains flag = true → flag = .leftJustify
  width : specifier.flags.contains .leftJustify = true → specifier.width ≠ none

/-- The first rule for dates that a specifier breaks. -/
inductive BreaksDate (specifier : Specifier) : Fault → Prop where
  | precision (h : specifier.precision ≠ none) :
      BreaksDate specifier (.precisionNotAllowed specifier.conversion)
  | flag {flag : Flag} (hprecision : specifier.precision = none)
      (h : specifier.flags.contains flag = true) (hother : flag ≠ .leftJustify) :
      BreaksDate specifier (.flagNotApplicable flag.toChar specifier.conversion)
  | width (hprecision : specifier.precision = none)
      (hflags : ∀ flag, specifier.flags.contains flag = true → flag = .leftJustify)
      (hleft : specifier.flags.contains .leftJustify = true) (h : specifier.width = none) :
      BreaksDate specifier (.missingWidth '-')

theorem not_suitsDate_of_breaksDate {specifier : Specifier} {broken : Fault}
    (h : specifier.BreaksDate broken) : ¬specifier.SuitsDate := by
  intro hsuits
  cases h with
  | precision h => exact h hsuits.precision
  | flag _ h hother => exact hother (hsuits.flags _ h)
  | width _ _ hleft h => exact hsuits.width hleft h

theorem fault?_of_precision {specifier : Specifier} {field : DateField}
    (hdate : specifier.conversion = .dateTime field) (hprecision : specifier.precision ≠ none) :
    specifier.fault? = some (.precisionNotAllowed specifier.conversion) := by
  simp [fault?, hdate, Conversion.allowsPrecision, Option.isSome_iff_ne_none, hprecision]

/-- A flag that dates do not take is found before the width is looked at. -/
theorem fault?_of_rejected {specifier : Specifier} {field : DateField} {flag : Flag}
    (hdate : specifier.conversion = .dateTime field) (hprecision : specifier.precision = none)
    (hfind : specifier.flags.toList.find? (Conversion.dateTime field).rejects = some flag) :
    specifier.fault? = some (.flagNotApplicable flag.toChar specifier.conversion) := by
  simp [fault?, hdate, hprecision, hfind]

/-- With nothing else to reject, only a width can be missing. -/
theorem fault?_of_flags {specifier : Specifier} {field : DateField}
    (hdate : specifier.conversion = .dateTime field) (hprecision : specifier.precision = none)
    (hfind : specifier.flags.toList.find? (Conversion.dateTime field).rejects = none)
    (hflags : ∀ flag, specifier.flags.contains flag = true → flag = .leftJustify) :
    specifier.fault? = if specifier.width.isNone && specifier.flags.contains .leftJustify then
      some (.missingWidth '-') else none := by
  have hzero : specifier.flags.zeroPad = false := by
    rw [Bool.eq_false_iff]
    intro hzero
    cases hflags .zeroPad hzero
  have hplus : specifier.flags.plus = false := by
    rw [Bool.eq_false_iff]
    intro hplus
    cases hflags .plus hplus
  simp [fault?, hdate, hprecision, hfind, hzero, hplus, Conversion.readsArgument, Flags.contains,
    Flag.toChar]

/-- A date/time specifier suits the rules, or breaks one of three. -/
theorem fault?_date (specifier : Specifier) {field : DateField}
    (hdate : specifier.conversion = .dateTime field) :
    specifier.SuitsDate ∧ specifier.fault? = none ∨
      ∃ broken, specifier.fault? = some broken ∧ specifier.BreaksDate broken := by
  by_cases hprecision : specifier.precision = none
  · cases hfind : specifier.flags.toList.find? (Conversion.dateTime field).rejects with
    | some flag =>
        have hmem := List.mem_of_find?_eq_some hfind
        have hother : flag ≠ .leftJustify := by
          simpa [Conversion.rejects] using List.find?_some hfind
        exact .inr ⟨_, fault?_of_rejected hdate hprecision hfind,
          .flag hprecision (Flags.mem_toList.mp hmem) hother⟩
    | none =>
        have hflags : ∀ flag, specifier.flags.contains flag = true → flag = .leftJustify := by
          intro flag hflag
          simpa [Conversion.rejects] using
            List.find?_eq_none.mp hfind flag (Flags.mem_toList.mpr hflag)
        have hfault := fault?_of_flags hdate hprecision hfind hflags
        by_cases hmissing : (specifier.width.isNone &&
            specifier.flags.contains .leftJustify) = true
        · rw [if_pos hmissing] at hfault
          rw [Bool.and_eq_true, Option.isNone_iff_eq_none] at hmissing
          exact .inr ⟨_, hfault, .width hprecision hflags hmissing.2 hmissing.1⟩
        · rw [if_neg hmissing] at hfault
          rw [Bool.and_eq_true, Option.isNone_iff_eq_none] at hmissing
          exact .inl ⟨⟨hprecision, hflags, fun hleft hnone => hmissing ⟨hnone, hleft⟩⟩, hfault⟩
  · exact .inr ⟨_, fault?_of_precision hdate hprecision, .precision hprecision⟩

end Specifier

/-! ## The specifier with its `t` -/

/-- How a text is read when its specifier at a fault has got its `t`. What stands before is read
as it was; the specifier has the parts that are written and a lower case conversion. -/
structure ReadsDate (format fixed : String) (fault : Located Fault) (specifier : Specifier)
    (rest : List Char) (segments : List (Located Segment)) : Prop where
  before : Reading.ofText format = ⟨segments, some fault⟩
  accepted : specifier.SuitsDate → Reading.ofText fixed =
    ⟨segments ++ ⟨.specifier specifier, fault.span.start, fault.span.stop + 1⟩ ::
        (Input.read ⟨fault.span.stop + 1, rest⟩).segments,
      (Input.read ⟨fault.span.stop + 1, rest⟩).fault?⟩
  refused : ¬specifier.SuitsDate → ∃ broken, specifier.BreaksDate broken ∧
    Reading.ofText fixed =
      ⟨segments, some ⟨broken, fault.span.start, fault.span.stop + 1⟩⟩

theorem Reached.readsDate {format fixed : String} {chunks : List Chunk} {after : Input}
    {fault : Located Fault} {opening : Opening} {field : DateField} {rest : List Char}
    (h : Reached format chunks after) (hstep : after.step = .failed fault)
    (hadds : AddsPrefix format fixed fault.span (Chunk.text chunks) opening field rest) :
    ReadsDate format fixed fault (opening.specifier (.dateTime field) false) rest
      (Chunk.located 0 chunks) := by
  have hfixed := hadds.fixed_eq_dated
  have hstart : after.offset = fault.span.start := by rw [h.offset_eq, hadds.span_eq]
  have hstop : after.offset + Text.byteLength ('%' :: (opening.dated field).chars) =
      fault.span.stop + 1 := by
    have hbytes : 't'.utf8Size = 1 := rfl
    have hchars : (opening.dated field).chars = opening.chars ++ ['t', field.toChar] := rfl
    simp only [h.offset_eq, hadds.span_eq, hchars, Text.byteLength_cons, Text.byteLength_append,
      Text.byteLength_nil, hbytes]
    omega
  refine ⟨h.reading_eq (.failed hstep), ?_, ?_⟩
  · intro hsuits
    have hvalid : (opening.dated field).specifier.fault? = none := by
      rcases (opening.dated field).specifier.fault?_date rfl with
        ⟨-, hnone⟩ | ⟨broken, -, hbreaks⟩
      · exact hnone
      · exact absurd hsuits (Specifier.not_suitsDate_of_breaksDate hbreaks)
    have hreached := h.follow hvalid hfixed
    have hplace : Text.byteLength (Chunk.text chunks) = fault.span.start :=
      h.offset_eq.symm.trans hstart
    rw [hstart] at hstop
    rw [Reading.ofText, Input.read_of_chunks hreached.reads hreached.maximal hreached.ends, hstart,
      hstop, Chunk.located_append]
    simp only [Chunk.located, Chunk.segment, Chunk.chars, Input.ofText, Nat.zero_add, hplace, hstop,
      List.append_assoc, List.cons_append, List.nil_append]
    rfl
  · intro hnot
    rcases (opening.dated field).specifier.fault?_date rfl with
      ⟨hsuits, -⟩ | ⟨broken, hrules, hbreaks⟩
    · exact absurd hsuits hnot
    · refine ⟨broken, hbreaks, ?_⟩
      rw [h.reading_of_rule hrules hfixed, hstart, ← hstop, hstart]

/-- A date/time suffix that stands alone has one fix, which puts a `t` in front of it. The text is
then read as before up to the specifier, which passes exactly when it suits a date. -/
theorem prefix_completes_date (format : String) (fault : Located Fault) (c : Char)
    (hparse : parse format = .error fault) (hfault : fault.value = .unknownConversion (some c))
    (hsuffix : Fault.isDateSuffix c = true) :
    ∃ fix fixed front opening field rest segments,
      ((Problem.malformed fault.value).diagnose fault.span).fixes = [fix] ∧
      fix.applyTo? format = some fixed ∧
      field.toChar = c ∧
      AddsPrefix format fixed fault.span front opening field rest ∧
      ReadsDate format fixed fault (opening.specifier (.dateTime field) false) rest segments := by
  obtain ⟨chunks, after, hreached, hstep⟩ := exists_reached_of_error hparse
  obtain ⟨fixed, opening, field, rest, rfl, happly, hadds⟩ :=
    hreached.exists_addsPrefix hstep hfault hsuffix
  refine ⟨.replace "add the `t` prefix" .tentative
      (.point (fault.span.stop - field.toChar.utf8Size)) "t", String.ofList fixed,
    Chunk.text chunks, opening, field, rest, Chunk.located 0 chunks, ?_, ?_, rfl, hadds,
    hreached.readsDate hstep hadds⟩
  · rw [hfault]
    simp [Problem.diagnose, Problem.fixes, Fault.fix?, hsuffix]
  · rw [Fix.applyTo?_replace, happly, Option.map_some]

theorem prefix_completes_date_width :
    parse "é%-5Y✓" = .error ⟨.unknownConversion (some 'Y'), 2, 6⟩ ∧
      ∃ fix fixed front opening field rest segments,
        ((Problem.malformed (.unknownConversion (some 'Y'))).diagnose ⟨2, 6⟩).fixes = [fix] ∧
        fix.applyTo? "é%-5Y✓" = some fixed ∧
        field.toChar = 'Y' ∧
        AddsPrefix "é%-5Y✓" fixed ⟨2, 6⟩ front opening field rest ∧
        ReadsDate "é%-5Y✓" fixed ⟨.unknownConversion (some 'Y'), 2, 6⟩
          (opening.specifier (.dateTime field) false) rest segments := by
  have hparse : parse "é%-5Y✓" = .error ⟨.unknownConversion (some 'Y'), 2, 6⟩ := by
    decide +kernel
  exact ⟨hparse, prefix_completes_date "é%-5Y✓" _ 'Y' hparse rfl (by decide)⟩

end FormatCheck
