import FormatCheck.Proofs.Format.Canonical
import FormatCheck.Proofs.Format.Progress
import FormatCheck.Proofs.Format.Unknown
import FormatCheck.Proofs.Report.Replacement

/-! # Completing a specifier

A specifier that the end of the text cuts off becomes a percent sign, and the text is
then well formed. One that lacks its `t` gets it, and is then either read, so that
reading comes further than before, or breaks a rule that has no fix. -/

namespace FormatCheck

/-! ## Percent signs -/

theorem Segment.values_cons_literal (text : String) (span : Span)
    (segments : List (Located Segment)) :
    values (⟨.literal text, span⟩ :: segments) = values segments := rfl

theorem Segment.values_cons_specifier (specifier : Specifier) (span : Span)
    (segments : List (Located Segment)) :
    values (⟨.specifier specifier, span⟩ :: segments) = specifier :: values segments := rfl

/-- Each specifier has a percent sign of its own. -/
theorem Chunk.length_values_le (offset : Nat) (chunks : List Chunk) :
    (Segment.values (located offset chunks)).length ≤ (text chunks).count '%' := by
  induction chunks generalizing offset with
  | nil => simp [located, Segment.values, Segment.specifiers]
  | cons chunk chunks ih =>
      have hrest := ih (offset + Text.byteLength chunk.chars)
      rw [text_cons, List.count_append, located]
      cases chunk with
      | plain run hne hpercent =>
          rw [segment, Segment.values_cons_literal]
          omega
      | specifier spelling hvalid =>
          rw [segment, Segment.values_cons_specifier, chars, List.length_cons,
            List.count_cons_self]
          rw [chars] at hrest
          omega

/-- Reading comes as far in any text that is the same up to a percent sign. -/
theorem Reached.change {format fixed : String} {chunks : List Chunk} {after : Input}
    {rest : List Char} (h : Reached format chunks after)
    (hfixed : fixed.toList = Chunk.text chunks ++ '%' :: rest) :
    Reached fixed chunks ⟨after.offset, '%' :: rest⟩ where
  reads := ⟨hfixed, h.reads.2⟩
  maximal := h.maximal
  ends := by
    intro chunk _ _ c hc
    obtain rfl : '%' = c := Option.some.inj hc
    rfl

/-- Any specifier can follow what was passed, whatever stood there before. -/
theorem Reached.follow {format fixed : String} {chunks : List Chunk} {after : Input}
    {spelling : Spelling} {rest : List Char} (h : Reached format chunks after)
    (hvalid : spelling.specifier.fault? = none)
    (hfixed : fixed.toList = Chunk.text chunks ++ '%' :: (spelling.chars ++ rest)) :
    Reached fixed (chunks ++ [.specifier spelling hvalid])
      ⟨after.offset + Text.byteLength ('%' :: spelling.chars), rest⟩ := by
  refine (h.change hfixed).append ⟨?_, ?_⟩ (.singleton _) ?_
  · simp [Chunk.chars]
  · simp [Chunk.chars]
  · intro chunk hchunk hplain
    obtain rfl : Chunk.specifier spelling hvalid = chunk := by simpa using hchunk
    cases hplain

/-- A specifier that breaks a rule stops reading there, whatever stands behind. -/
theorem Reached.reading_of_rule {format fixed : String} {chunks : List Chunk}
    {after : Input} {spelling : Spelling} {rest : List Char} {broken : Fault}
    (h : Reached format chunks after) (hrules : spelling.specifier.fault? = some broken)
    (hfixed : fixed.toList = Chunk.text chunks ++ '%' :: (spelling.chars ++ rest)) :
    Reading.ofText fixed = ⟨Chunk.located 0 chunks, some ⟨broken, after.offset,
      after.offset + Text.byteLength ('%' :: spelling.chars)⟩⟩ := by
  let opened : Input := ⟨after.offset + '%'.utf8Size, spelling.chars ++ rest⟩
  let stop : Nat := after.offset + Text.byteLength ('%' :: spelling.chars)
  have hreads : opened.Reads spelling.chars ⟨stop, rest⟩ := by
    refine ⟨rfl, ?_⟩
    simp only [stop, opened, Text.byteLength_cons]
    omega
  have hread : Reader.specifier opened = .error broken ⟨stop, rest⟩ :=
    Reader.specifier_eq_error hreads hrules
  have hfails : Input.step ⟨after.offset, '%' :: (spelling.chars ++ rest)⟩ =
      .failed ⟨broken, after.offset, stop⟩ := by
    rw [Input.step_of_percent rfl, hread]
  exact (h.change hfixed).reading_eq (.failed hfails)

/-- A fault for an unknown conversion reaches over the percent sign, an opening and what
was found. Nothing follows when nothing was found. -/
theorem Reached.exists_of_unknown {format : String} {chunks : List Chunk} {after : Input}
    {fault : Located Fault} {found : Option Char} (h : Reached format chunks after)
    (hstep : after.step = .failed fault) (hfault : fault.value = .unknownConversion found) :
    ∃ (opening : Opening) (rest : List Char),
      after.rest = '%' :: opening.chars ++ (found.toList ++ rest) ∧
      fault.span = ⟨Text.byteLength (Chunk.text chunks),
        Text.byteLength (Chunk.text chunks) + Text.byteLength ('%' :: opening.chars) +
          Text.byteLength found.toList⟩ ∧
      (found = none → rest = []) := by
  obtain ⟨unread, stop, hunread, hread, hspan⟩ := Input.exists_of_failed hstep
  rw [hfault] at hread
  obtain ⟨opening, mid, hopening, hhead, hfound⟩ := Reader.exists_opening_of_unknown hread
  have hmid : after.Reads ('%' :: opening.chars) mid := (Input.reads_cons hunread).append hopening
  refine ⟨opening, stop.rest, ?_, ?_, ?_⟩
  · rw [hmid.1, hfound.1]
  · rw [hspan, hfound.2, hmid.2, h.offset_eq]
  · rintro rfl
    rw [hfound.after_eq (.refl mid)]
    exact List.head?_eq_none_iff.mp hhead.symm

/-! ## A specifier that is cut off -/

/-- The specifier that prints a percent sign. -/
def Specifier.percentSign : Specifier :=
  ⟨.implicit, .empty, none, none, .percent, false⟩

theorem Specifier.writable_percentSign : percentSign.Writable :=
  ⟨by decide, by decide, by decide, by decide⟩

/-- With a percent sign in place of the cut-off specifier the text is well formed. What
stood before it is read as before. -/
theorem Reached.escape {format : String} {chunks : List Chunk} {after : Input}
    {fault : Located Fault} (h : Reached format chunks after)
    (hstep : after.step = .failed fault) (hfault : fault.value = .unknownConversion none) :
    ∃ fixed, Substitution.applyTo? ⟨fault.span, "%%"⟩ format.toList = some fixed ∧
      Text.byteLength fixed ≤ Text.byteLength format.toList + 1 ∧
      parse (String.ofList fixed) = .ok (Chunk.located 0 chunks ++
        [⟨.specifier .percentSign, fault.span.start, Text.byteLength fixed⟩]) := by
  obtain ⟨opening, rest, hrest, hspan, hnone⟩ := h.exists_of_unknown hstep hfault
  rw [hnone rfl] at hrest
  have hformat : format.toList = Chunk.text chunks ++ ('%' :: opening.chars ++ []) := by
    rw [h.toList_eq, hrest]
    rfl
  let fixed : List Char := Chunk.text chunks ++ ['%', '%']
  let spelling := Specifier.percentSign.spelling Specifier.writable_percentSign
  have hspecifier : spelling.specifier = .percentSign := Specifier.specifier_spelling _ _
  have hvalid : spelling.specifier.fault? = none := by
    rw [hspecifier]
    exact Specifier.writable_percentSign.valid
  have hchars : '%' :: spelling.chars = ['%', '%'] := Specifier.chars_spelling _ _
  have hfixed : (String.ofList fixed).toList =
      Chunk.text chunks ++ '%' :: (spelling.chars ++ []) := by
    simp [fixed, hchars]
  refine ⟨fixed, ?_, ?_, ?_⟩
  · rw [hformat, Substitution.applyTo?_of_append hspan]
    simp [fixed]
  · have hbytes : Text.byteLength ['%', '%'] = '%'.utf8Size + 1 := rfl
    rw [hformat, Text.byteLength_append, Text.byteLength_append, hbytes, List.cons_append,
      Text.byteLength_cons]
    omega
  · rw [(h.follow hvalid hfixed).parse_eq_ok rfl, Chunk.located_append]
    simp [Chunk.located, Chunk.segment, Chunk.chars, hspecifier, hchars, hspan, fixed]

/-- A specifier at the fault has the percent sign there, so that no text has more
specifiers than percent signs. -/
theorem Reached.length_values_le {format : String} {chunks : List Chunk} {after : Input}
    {fault : Located Fault} (h : Reached format chunks after)
    (hstep : after.step = .failed fault) (specifier : Specifier) (span : Span) :
    (Segment.values (Chunk.located 0 chunks ++ [⟨.specifier specifier, span⟩])).length ≤
      format.toList.count '%' := by
  obtain ⟨unread, -, hunread, -, -⟩ := Input.exists_of_failed hstep
  have hle := Chunk.length_values_le 0 chunks
  rw [Segment.values_append_cons, h.toList_eq, hunread, List.count_append,
    List.count_cons_self, List.length_append]
  simp only [Segment.values, Segment.specifiers, List.filterMap_nil, List.map_nil,
    List.length_cons, List.length_nil] at hle ⊢
  omega

/-! ## A specifier without its `t` -/

/-- The texts without and with a `t` in front of the suffix that ends a specifier, and the range
of the specifier in the first one. -/
structure AddsPrefix (format fixed : String) (span : Span) (front : List Char)
    (opening : Opening) (field : DateField) (rest : List Char) : Prop where
  format_eq : format.toList = front ++ '%' :: (opening.chars ++ field.toChar :: rest)
  fixed_eq : fixed.toList = front ++ '%' :: (opening.chars ++ 't' :: field.toChar :: rest)
  span_eq : span = ⟨Text.byteLength front,
    Text.byteLength front + Text.byteLength ('%' :: (opening.chars ++ [field.toChar]))⟩

/-- The `t` goes between the opening of the specifier and the suffix. -/
theorem Reached.exists_addsPrefix {format : String} {chunks : List Chunk} {after : Input}
    {fault : Located Fault} {c : Char} (h : Reached format chunks after)
    (hstep : after.step = .failed fault) (hfault : fault.value = .unknownConversion (some c))
    (hsuffix : Fault.isDateSuffix c = true) :
    ∃ fixed opening field rest, field.toChar = c ∧
      Substitution.applyTo? ⟨.point (fault.span.stop - c.utf8Size), "t"⟩ format.toList =
        some fixed ∧
      AddsPrefix format (String.ofList fixed) fault.span (Chunk.text chunks) opening field rest := by
  obtain ⟨opening, rest, hrest, hspan, -⟩ := h.exists_of_unknown hstep hfault
  obtain ⟨field, hfield⟩ := Option.isSome_iff_exists.mp hsuffix
  obtain rfl := DateField.ofChar?_eq_some_iff.mp hfield
  let front : List Char := Chunk.text chunks ++ '%' :: opening.chars
  have hformat : format.toList = front ++ ([] ++ field.toChar :: rest) := by
    simp [h.toList_eq, hrest, front]
  refine ⟨front ++ 't' :: field.toChar :: rest, opening, field, rest, rfl, ?_, ?_, ?_, ?_⟩
  · rw [hformat, Substitution.applyTo?_of_append]
    · simp
    · simp [hspan, Span.point, front]
  · simp [hformat, front]
  · simp [front]
  · rw [hspan, Span.mk.injEq]
    refine ⟨rfl, ?_⟩
    simp only [Option.toList_some, Text.byteLength_cons, Text.byteLength_append,
      Text.byteLength_nil]
    omega

/-- The specifier that its `t` completes. -/
def Opening.dated (opening : Opening) (field : DateField) : Spelling :=
  ⟨opening, .dateTime field, false, by simp⟩

theorem AddsPrefix.fixed_eq_dated {format fixed : String} {span : Span} {front rest : List Char}
    {opening : Opening} {field : DateField}
    (h : AddsPrefix format fixed span front opening field rest) :
    fixed.toList = front ++ '%' :: ((opening.dated field).chars ++ rest) := by
  have hchars : (opening.dated field).chars = opening.chars ++ ['t', field.toChar] := rfl
  simp [h.fixed_eq, hchars]

/-- With its `t` the specifier is read, so that fewer percent signs are ahead, or it
breaks a rule that has no fix. -/
theorem Reached.complete {format : String} {chunks : List Chunk} {after : Input}
    {fault : Located Fault} {c : Char} (h : Reached format chunks after)
    (hstep : after.step = .failed fault) (hfault : fault.value = .unknownConversion (some c))
    (hsuffix : Fault.isDateSuffix c = true) :
    ∃ fixed, Substitution.applyTo? ⟨.point (fault.span.stop - c.utf8Size), "t"⟩ format.toList =
        some fixed ∧
      Text.byteLength fixed = Text.byteLength format.toList + 1 ∧
      fixed.count '%' = format.toList.count '%' ∧
      ((∃ chunks' after', Reached (String.ofList fixed) chunks' after' ∧
          after'.rest.count '%' < after.rest.count '%') ∨
        ∃ fault', parse (String.ofList fixed) = .error fault' ∧
          ∀ found, fault'.value ≠ .unknownConversion found) := by
  obtain ⟨fixed, opening, field, rest, rfl, happly, hadds⟩ :=
    h.exists_addsPrefix hstep hfault hsuffix
  have hfixed : fixed = _ := String.toList_ofList.symm.trans hadds.fixed_eq
  refine ⟨fixed, happly, ?_, ?_, ?_⟩
  · have hbytes : 't'.utf8Size = 1 := rfl
    simp only [hadds.format_eq, hfixed, Text.byteLength_append, Text.byteLength_cons, hbytes]
    omega
  · simp [hadds.format_eq, hfixed]
  · cases hrules : (opening.dated field).specifier.fault? with
    | none =>
        have hrest : after.rest = '%' :: (opening.chars ++ field.toChar :: rest) :=
          List.append_cancel_left (h.toList_eq.symm.trans hadds.format_eq)
        refine .inl ⟨_, _, h.follow hrules hadds.fixed_eq_dated, ?_⟩
        rw [hrest, List.count_cons_self, List.count_append, List.count_cons]
        dsimp only
        omega
    | some broken =>
        refine .inr ⟨_, by rw [parse, h.reading_of_rule hrules hadds.fixed_eq_dated], ?_⟩
        intro found hfound
        obtain rfl : broken = .unknownConversion found := hfound
        exact Specifier.fault?_ne_unknown _ found hrules

end FormatCheck
