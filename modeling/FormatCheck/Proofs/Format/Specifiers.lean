import FormatCheck.Proofs.Format.Parts

/-! # Reading a whole specifier

A specifier is put together from its parts. Its conversion cannot be extended, so
nothing is demanded of the text after it. -/

namespace FormatCheck

namespace Reader

/-- What is left of reading a specifier after its opening. -/
def closing (opening : Opening) : Reader Specifier := do
  let (conversion, uppercase) ← conversion
  match (opening.specifier conversion uppercase).fault? with
  | some fault => throw fault
  | none => return opening.specifier conversion uppercase

theorem specifier_of_parts {opening : Opening} {input a b c mid : Input}
    (hindex : index input = .ok (Opening.positionIndex opening.position) a)
    (hmarks : marks a = .ok (opening.marks.foldl Marks.insert {}) b)
    (hwidth : number b = .ok (opening.width.map Numeral.word) c)
    (hprecision : precision c = .ok (opening.precision.map Numeral.word) mid) :
    specifier input = closing opening mid := by
  have hrelative : (if (opening.marks.foldl Marks.insert {}).relative then Index.relative
      else Opening.positionIndex opening.position) = opening.index := by
    simp [Opening.index, relative_foldl_insert]
  rw [specifier, bind_of_ok hindex, bind_of_ok hmarks, bind_of_ok hwidth, bind_of_ok hprecision,
    hrelative, flags_foldl_insert]
  rfl

/-- What comes next cannot belong to an opening. -/
structure EndsOpening (input : Input) : Prop where
  digit : input.Stops Char.isDigit
  mark : Marks.Ended input
  point : ¬PointAhead input
  dollar : input.Stops (· == '$')

/-- A position cannot be taken out of text without `$`. -/
theorem not_positionAhead {input after : Input} {text : List Char} (h : input.Reads text after)
    (htext : '$' ∉ text) (hdigit : after.Stops Char.isDigit) (hdollar : after.Stops (· == '$')) :
    ¬PositionAhead input := by
  intro hahead
  obtain ⟨digits, rest, -, hdigits, hrest⟩ := hahead
  rw [h.1] at hrest
  rcases List.append_eq_append_iff.mp hrest with ⟨more, hmore, hafter⟩ | ⟨more, hmore, hafter⟩
  · cases more with
    | nil => simpa using hdollar '$' (by simp [hafter])
    | cons d more => simpa [hdigits d (by simp [hmore])] using hdigit d (by simp [hafter])
  · cases more with
    | nil =>
        have hhead : after.rest.head? = some '$' := by
          rw [← List.nil_append after.rest, ← hafter, List.head?_cons]
        simpa using hdollar '$' hhead
    | cons d more =>
        obtain ⟨rfl, -⟩ := List.cons.inj hafter
        simp [hmore] at htext

theorem endsOpening_of_conversion {conv : Conversion} {uppercase : Bool} {input after : Input}
    (h : input.Reads (conv.written uppercase) after) : EndsOpening input := by
  have hhead := fun c (hc : c ∈ (conv.written uppercase).head?) => Conversion.head_written hc
  have hne : conv.written uppercase ≠ [] := by simp [Conversion.written]
  refine ⟨h.stops (fun c hc => (hhead c hc).1) (absurd · hne),
    h.stops (fun c hc => by simp [(hhead c hc).2.1]) (absurd · hne), ?_,
    h.stops (fun c hc => by simp [(hhead c hc).2.2.2]) (absurd · hne)⟩
  intro hpoint
  obtain ⟨d, rest, hrest, -⟩ := hpoint
  have hpoint : '.' ∈ (conv.written uppercase).head? := by
    have h := h.1
    simp only [hrest, Conversion.written, List.cons_append, List.cons.injEq] at h
    simp [Conversion.written, ← h.1]
  exact (hhead '.' hpoint).2.2.1 rfl

/-- The inputs between the parts of an opening, as the readers of the parts pass them. -/
structure ReadsParts (opening : Opening) (input a b c mid : Input) : Prop where
  position : input.Reads (Opening.positionChars opening.position) a
  marks : a.Reads (opening.marks.map Mark.toChar) b
  width : b.Reads (Numeral.chars opening.width) c
  precision : c.Reads (Opening.precisionChars opening.precision) mid
  index_ok : Reader.index input = .ok (Opening.positionIndex opening.position) a
  marks_ok : Reader.marks a = .ok (opening.marks.foldl Marks.insert {}) b
  width_ok : Reader.number b = .ok (opening.width.map Numeral.word) c
  precision_ok : Reader.precision c = .ok (opening.precision.map Numeral.word) mid

/-- A written opening is read part by part, whatever follows it. -/
theorem exists_readsParts {opening : Opening} {input mid : Input}
    (h : input.Reads opening.chars mid) (hend : EndsOpening mid) :
    ∃ a b c, ReadsParts opening input a b c mid := by
  obtain ⟨a, ha, hrest⟩ := h.split
  obtain ⟨b, hb, hrest⟩ := hrest.split
  obtain ⟨c, hc, hd⟩ := hrest.split
  have hcdigit : c.Stops Char.isDigit := by
    refine hd.stops ?_ fun _ => hend.digit
    intro x hx
    rw [Opening.eq_point_of_head hx]
    decide
  have hcended : Marks.Ended c := by
    refine hd.stops ?_ fun _ => hend.mark
    intro x hx
    rw [Opening.eq_point_of_head hx]
    decide
  have hbended : Marks.Ended b := by
    refine hc.stops ?_ fun _ => hcended
    intro x hx
    rw [Opening.ofChar?_of_head_width hx]
    rfl
  have hindex : index input = .ok (Opening.positionIndex opening.position) a := by
    refine index_eq_ok_iff.mpr ⟨_, opening.position_ne_zero, ha, ?_, rfl⟩
    intro hnone
    exact not_positionAhead h (Opening.dollar_notMem_chars hnone) hend.digit hend.dollar
  have hprecision : precision c = .ok (opening.precision.map Numeral.word) mid := by
    refine precision_eq_ok_iff.mpr ⟨_, hd, fun _ _ => hend.digit, ?_, rfl⟩
    intro hnone
    rw [hnone] at hd
    rw [← hd.after_eq (.refl c)]
    exact hend.point
  exact ⟨a, b, c, ha, hb, hc, hd, hindex,
    marks_eq_ok_iff.mpr ⟨_, opening.marks_nodup, hb, hbended, rfl⟩,
    number_eq_ok_iff.mpr ⟨_, hc, hcdigit, rfl⟩, hprecision⟩

theorem ReadsParts.specifier_eq {opening : Opening} {input a b c mid : Input}
    (h : ReadsParts opening input a b c mid) : specifier input = closing opening mid :=
  specifier_of_parts h.index_ok h.marks_ok h.width_ok h.precision_ok

theorem specifier_of_opening {opening : Opening} {input mid : Input}
    (h : input.Reads opening.chars mid) (hend : EndsOpening mid) :
    specifier input = closing opening mid := by
  obtain ⟨a, b, c, hparts⟩ := exists_readsParts h hend
  exact hparts.specifier_eq

/-- An opening was read whenever the readers of its parts came as far as a conversion. -/
theorem exists_opening_of_parts {i : Index} {found : Marks} {w p : Option UInt32}
    {input a b c mid : Input} (hindex : index input = .ok i a) (hmarks : marks a = .ok found b)
    (hnumber : number b = .ok w c) (hprecision : precision c = .ok p mid) :
    ∃ opening : Opening, input.Reads opening.chars mid ∧
      specifier input = closing opening mid := by
  obtain ⟨position, hpos, ha, -, rfl⟩ := index_eq_ok_iff.mp hindex
  obtain ⟨written, hnodup, hb, hended, rfl⟩ := marks_eq_ok_iff.mp hmarks
  obtain ⟨width, hc, -, rfl⟩ := number_eq_ok_iff.mp hnumber
  obtain ⟨prec, hd, -, -, rfl⟩ := precision_eq_ok_iff.mp hprecision
  -- A zero after the marks would itself have been a mark.
  have hhead : ∀ numeral ∈ width, numeral.digits.head? ≠ some '0' := by
    intro numeral hnumeral hzero
    obtain rfl : width = some numeral := hnumeral
    have hnext : b.rest.head? = some '0' := by
      rw [hc.1, Numeral.chars, List.head?_append, hzero]
      rfl
    exact absurd (hended '0' hnext) (by decide)
  let opening : Opening := ⟨position, written, width, prec, hpos, hnodup, hhead⟩
  exact ⟨opening, ha.append (hb.append (hc.append hd)),
    specifier_of_parts hindex hmarks hnumber hprecision⟩

theorem exists_opening {result : Specifier} {input after : Input}
    (h : specifier input = .ok result after) :
    ∃ (opening : Opening) (mid : Input), input.Reads opening.chars mid ∧
      closing opening mid = .ok result after := by
  have hspecifier := h
  obtain ⟨i, a, hindex, h⟩ := bind_eq_ok_iff.mp h
  obtain ⟨found, b, hmarks, h⟩ := bind_eq_ok_iff.mp h
  obtain ⟨w, c, hnumber, h⟩ := bind_eq_ok_iff.mp h
  obtain ⟨p, mid, hprecision, h⟩ := bind_eq_ok_iff.mp h
  obtain ⟨opening, hreads, hclosing⟩ :=
    exists_opening_of_parts hindex hmarks hnumber hprecision
  exact ⟨opening, mid, hreads, hclosing.symm.trans hspecifier⟩

theorem closing_eq_ok_iff {opening : Opening} {result : Specifier} {input after : Input} :
    closing opening input = .ok result after ↔
      ∃ conv uppercase, conversion input = .ok (conv, uppercase) after ∧
        result = opening.specifier conv uppercase ∧ result.fault? = none := by
  simp only [closing, bind_eq_ok_iff, Prod.exists]
  constructor
  · intro h
    obtain ⟨conv, uppercase, mid, hconversion, h⟩ := h
    cases hfault : (opening.specifier conv uppercase).fault? with
    | some fault =>
        rw [hfault] at h
        exact absurd h throw_ne_ok
    | none =>
        rw [hfault] at h
        obtain ⟨rfl, rfl⟩ := pure_eq_ok_iff.mp h
        exact ⟨conv, uppercase, hconversion, rfl, hfault⟩
  · intro h
    obtain ⟨conv, uppercase, hconversion, rfl, hfault⟩ := h
    refine ⟨conv, uppercase, after, hconversion, ?_⟩
    rw [hfault]
    rfl

/-- A specifier is read exactly where it is written, whatever follows it. -/
theorem specifier_eq_ok_iff {result : Specifier} {input after : Input} :
    specifier input = .ok result after ↔
      ∃ spelling : Spelling, input.Reads spelling.chars after ∧ spelling.specifier = result ∧
        result.fault? = none := by
  constructor
  · intro h
    obtain ⟨opening, mid, hopening, hclosing⟩ := exists_opening h
    obtain ⟨conv, uppercase, hconversion, rfl, hfault⟩ := closing_eq_ok_iff.mp hclosing
    obtain ⟨hreads, hupper⟩ := reads_of_conversion hconversion
    exact ⟨⟨opening, conv, uppercase, hupper⟩, hopening.append hreads, rfl, hfault⟩
  · intro h
    obtain ⟨spelling, hreads, rfl, hfault⟩ := h
    obtain ⟨mid, hopening, hconversion⟩ := hreads.split
    rw [specifier_of_opening hopening (endsOpening_of_conversion hconversion)]
    exact closing_eq_ok_iff.mpr ⟨_, _, conversion_of_reads hconversion spelling.hasUppercase, rfl,
      hfault⟩

/-- A written specifier that breaks a rule is refused for it. -/
theorem specifier_eq_error {spelling : Spelling} {fault : Fault} {input after : Input}
    (h : input.Reads spelling.chars after) (hfault : spelling.specifier.fault? = some fault) :
    specifier input = .error fault after := by
  obtain ⟨mid, hopening, hconversion⟩ := h.split
  have hrules : (spelling.opening.specifier spelling.conversion spelling.uppercase).fault? =
      some fault := hfault
  rw [specifier_of_opening hopening (endsOpening_of_conversion hconversion), closing,
    bind_of_ok (conversion_of_reads hconversion spelling.hasUppercase)]
  simp only [hrules]
  rfl

/-! ## One reading -/

theorem ReadsParts.opening_eq {opening other : Opening} {input a b c mid a' b' c' mid' : Input}
    (h : ReadsParts opening input a b c mid) (h' : ReadsParts other input a' b' c' mid') :
    opening = other ∧ mid = mid' := by
  obtain ⟨-, rfl⟩ := EStateM.Result.ok.inj (h.index_ok.symm.trans h'.index_ok)
  obtain ⟨-, rfl⟩ := EStateM.Result.ok.inj (h.marks_ok.symm.trans h'.marks_ok)
  obtain ⟨-, rfl⟩ := EStateM.Result.ok.inj (h.width_ok.symm.trans h'.width_ok)
  obtain ⟨-, rfl⟩ := EStateM.Result.ok.inj (h.precision_ok.symm.trans h'.precision_ok)
  have hposition := Opening.positionChars_injective (h.position.text_eq h'.position)
  have hmarks : opening.marks = other.marks :=
    List.map_inj_right (fun _ _ => Mark.toChar_injective) |>.mp (h.marks.text_eq h'.marks)
  have hwidth := Numeral.chars_injective (h.width.text_eq h'.width)
  have hprecision := Opening.precisionChars_injective (h.precision.text_eq h'.precision)
  cases opening
  cases other
  simp_all

/-- No text starts with two written specifiers. -/
theorem spelling_eq_of_reads {spelling other : Spelling} {input after after' : Input}
    (h : input.Reads spelling.chars after) (h' : input.Reads other.chars after') :
    spelling = other ∧ after = after' := by
  obtain ⟨mid, hmid, hconversion⟩ := h.split
  obtain ⟨mid', hmid', hconversion'⟩ := h'.split
  obtain ⟨a, b, c, hparts⟩ := exists_readsParts hmid (endsOpening_of_conversion hconversion)
  obtain ⟨a', b', c', hparts'⟩ := exists_readsParts hmid' (endsOpening_of_conversion hconversion')
  obtain ⟨hopening, rfl⟩ := hparts.opening_eq hparts'
  have hread := conversion_of_reads hconversion spelling.hasUppercase
  rw [conversion_of_reads hconversion' other.hasUppercase] at hread
  obtain ⟨hpair, rfl⟩ := EStateM.Result.ok.inj hread
  cases spelling
  cases other
  simp_all

end Reader

end FormatCheck
