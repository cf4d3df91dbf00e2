import FormatCheck.Proofs.Format.Passage

/-! # Reading the parts of a specifier

Each part has one statement: its reader returns a value exactly when the text starts
with a written form of it, followed by something that cannot extend that form. -/

namespace FormatCheck

/-! ## Numbers -/

namespace Reader

/-- Digits are read as the number they denote; a number that is too large is refused. -/
theorem number_eq_ok_iff {n : Option UInt32} {input after : Input} :
    number input = .ok n after ↔
      ∃ numeral : Option Numeral, input.Reads (Numeral.chars numeral) after ∧
        after.Stops Char.isDigit ∧ n = numeral.map Numeral.word := by
  simp only [number, bind_eq_ok_iff, takeWhile_eq_ok_iff]
  constructor
  · intro h
    obtain ⟨digits, mid, ⟨hreads, hdigits, hstops⟩, h⟩ := h
    by_cases hempty : digits = []
    · subst hempty
      obtain ⟨rfl, rfl⟩ := pure_eq_ok_iff.mp h
      exact ⟨none, hreads, hstops, rfl⟩
    · simp only [List.isEmpty_iff, hempty, ↓reduceIte] at h
      cases hword : Decimal.word? digits with
      | none => simp [hword, throw_ne_ok] at h
      | some word =>
          rw [hword] at h
          obtain ⟨rfl, rfl⟩ := pure_eq_ok_iff.mp h
          obtain ⟨numeral, rfl, rfl⟩ := Numeral.exists_of_word? hempty hdigits hword
          exact ⟨some numeral, hreads, hstops, rfl⟩
  · intro h
    obtain ⟨numeral, hreads, hstops, rfl⟩ := h
    cases numeral with
    | none => exact ⟨[], after, ⟨hreads, by simp, hstops⟩, pure_eq_ok_iff.mpr ⟨rfl, rfl⟩⟩
    | some numeral =>
        refine ⟨numeral.digits, after, ⟨hreads, numeral.isDigit, hstops⟩, ?_⟩
        simp [numeral.nonempty, numeral.word?_digits, pure_eq_ok_iff]

/-! ## Precision -/

/-- A point and a digit come next. -/
def PointAhead (input : Input) : Prop :=
  ∃ d rest, input.rest = '.' :: d :: rest ∧ d.isDigit = true

theorem precision_of_pointAhead {input : Input} (h : PointAhead input) :
    ∃ mid, input.Reads ['.'] mid ∧ ¬mid.Stops Char.isDigit ∧ precision input = number mid := by
  obtain ⟨d, rest, hrest, hd⟩ := h
  refine ⟨_, Input.reads_cons hrest, ?_, ?_⟩
  · intro hstops
    simp [hstops d rfl] at hd
  · simp only [precision, lookahead, Bind.bind, EStateM.bind, hrest, hd, ↓reduceIte,
      next_eq_ok hrest]

theorem precision_of_not_pointAhead {input : Input} (h : ¬PointAhead input) :
    precision input = .ok none input := by
  simp only [precision, lookahead, Bind.bind, EStateM.bind]
  generalize hrest : input.rest = unread
  split
  · rename_i d rest
    have hd : ¬d.isDigit = true := fun hd => h ⟨d, rest, hrest, hd⟩
    simp only [hd]
    rfl
  · rfl

theorem precision_eq_ok_iff {n : Option UInt32} {input after : Input} :
    precision input = .ok n after ↔
      ∃ numeral : Option Numeral, input.Reads (Opening.precisionChars numeral) after ∧
        (∀ digits ∈ numeral, after.Stops Char.isDigit) ∧ (numeral = none → ¬PointAhead input) ∧
        n = numeral.map Numeral.word := by
  by_cases hpoint : PointAhead input
  · obtain ⟨mid, hmid, hdigit, hprecision⟩ := precision_of_pointAhead hpoint
    rw [hprecision, number_eq_ok_iff]
    constructor
    · intro h
      obtain ⟨numeral, hreads, hstops, rfl⟩ := h
      cases numeral with
      | none =>
          rw [hreads.after_eq (.refl mid)] at hstops
          exact absurd hstops hdigit
      | some numeral => exact ⟨some numeral, hmid.append hreads, by simp [hstops], by simp, rfl⟩
    · intro h
      obtain ⟨numeral, hreads, hstops, hnone, rfl⟩ := h
      cases numeral with
      | none => exact absurd hpoint (hnone rfl)
      | some numeral =>
          obtain ⟨other, hother, hreads⟩ := Input.Reads.split (s := ['.']) hreads
          rw [hother.after_eq hmid] at hreads
          exact ⟨some numeral, hreads, hstops numeral rfl, rfl⟩
  · rw [precision_of_not_pointAhead hpoint]
    constructor
    · intro h
      cases h
      exact ⟨none, .refl input, by simp, fun _ => hpoint, rfl⟩
    · intro h
      obtain ⟨numeral, hreads, -, -, rfl⟩ := h
      cases numeral with
      | none =>
          rw [hreads.after_eq (.refl input)]
          rfl
      | some numeral =>
          exfalso
          cases hdigits : numeral.digits with
          | nil => exact numeral.nonempty hdigits
          | cons d ds =>
              have hrest := hreads.1
              simp only [Opening.precisionChars, hdigits] at hrest
              exact hpoint ⟨d, ds ++ after.rest, hrest, numeral.isDigit d (by simp [hdigits])⟩

/-! ## Index -/

/-- Digits and `$` come next. -/
def PositionAhead (input : Input) : Prop :=
  ∃ digits rest, digits ≠ [] ∧ (∀ d ∈ digits, d.isDigit = true) ∧ input.rest = digits ++ '$' :: rest

theorem index_of_positionAhead {input mid after : Input} {digits : List Char}
    (hne : digits ≠ []) (hdigits : ∀ d ∈ digits, d.isDigit = true)
    (hmid : input.Reads digits mid) (hafter : mid.Reads ['$'] after) :
    index input =
      match (Decimal.word? digits).filter (· ≠ 0) with
      | some position => .ok (.explicit position) after
      | none => .error (.invalidIndex (String.ofList digits)) after := by
  have hstops : mid.Stops Char.isDigit := by
    intro c hc
    simp only [hafter.1, List.cons_append, List.head?_cons, Option.mem_def, Option.some.injEq] at hc
    subst hc
    decide
  have htake := Input.takeWhile_eq_iff.mpr ⟨hmid, hdigits, hstops⟩
  have hafter' := hafter.after_eq (Input.reads_cons hafter.1)
  cases digits with
  | nil => exact absurd rfl hne
  | cons d digits =>
      obtain ⟨offset, rest⟩ := mid
      have hrest : rest = '$' :: after.rest := hafter.1
      subst hrest
      rw [index, htake, hafter']
      rfl

theorem index_of_not_positionAhead {input : Input} (h : ¬PositionAhead input) :
    index input = .ok .implicit input := by
  rw [index]
  split
  · rename_i d digits offset rest htake
    obtain ⟨hreads, hdigits, -⟩ := Input.takeWhile_eq_iff.mp htake
    exact absurd ⟨d :: digits, rest, by simp, hdigits, hreads.1⟩ h
  · rfl

theorem index_eq_ok_iff {i : Index} {input after : Input} :
    index input = .ok i after ↔
      ∃ position : Option Numeral, (∀ numeral ∈ position, numeral.word ≠ 0) ∧
        input.Reads (Opening.positionChars position) after ∧
        (position = none → ¬PositionAhead input) ∧ i = Opening.positionIndex position := by
  constructor
  · intro h
    by_cases hposition : PositionAhead input
    · obtain ⟨digits, rest, hne, hdigits, hrest⟩ := hposition
      let mid : Input := ⟨input.offset + Text.byteLength digits, '$' :: rest⟩
      have hmid : input.Reads digits mid := ⟨hrest, rfl⟩
      have hafter : mid.Reads ['$'] ⟨mid.offset + '$'.utf8Size, rest⟩ := Input.reads_cons rfl
      rw [index_of_positionAhead hne hdigits hmid hafter] at h
      split at h
      · rename_i position hword
        obtain ⟨hword, hpos⟩ := Option.filter_eq_some_iff.mp hword
        obtain ⟨numeral, rfl, rfl⟩ := Numeral.exists_of_word? hne hdigits hword
        cases h
        refine ⟨some numeral, ?_, hmid.append hafter, by simp, rfl⟩
        simpa using hpos
      · cases h
    · rw [index_of_not_positionAhead hposition] at h
      cases h
      exact ⟨none, by simp, .refl input, fun _ => hposition, rfl⟩
  · intro h
    obtain ⟨position, hpos, hreads, hnone, rfl⟩ := h
    cases position with
    | none =>
        rw [index_of_not_positionAhead (hnone rfl), hreads.after_eq (.refl input)]
        rfl
    | some numeral =>
        obtain ⟨mid, hmid, hafter⟩ := hreads.split
        have hword : (Decimal.word? numeral.digits).filter (· ≠ 0) = some numeral.word := by
          simp [numeral.word?_digits, hpos numeral rfl]
        rw [index_of_positionAhead numeral.nonempty numeral.isDigit hmid hafter, hword]
        rfl

end Reader

/-! ## Marks -/

namespace Marks

theorem contains_insert (found : Marks) (mark other : Mark) :
    (found.insert mark).contains other = (decide (other = mark) || found.contains other) := by
  cases mark with
  | relative => cases other <;> simp [insert, contains]
  | flag flag =>
      cases other with
      | relative => simp [insert, contains]
      | flag other =>
          simp only [insert, contains, Flags.contains_insert, Mark.flag.injEq]
          rfl

theorem contains_foldl_insert (marks : List Mark) (found : Marks) (mark : Mark) :
    (marks.foldl insert found).contains mark = (decide (mark ∈ marks) || found.contains mark) := by
  induction marks generalizing found with
  | nil => simp
  | cons first marks ih =>
      rw [List.foldl_cons, ih, contains_insert]
      by_cases hm : mark = first <;> simp [hm]

/-- No mark comes next. -/
def Ended (input : Input) : Prop :=
  input.Stops fun c => (Mark.ofChar? c).isSome

theorem readFrom_of_ended {found : Marks} {offset : Nat} {rest : List Char}
    (h : Ended ⟨offset, rest⟩) : found.readFrom offset rest = .ok found ⟨offset, rest⟩ := by
  cases rest with
  | nil => rfl
  | cons c rest =>
      have hc : Mark.ofChar? c = none := by simpa using h c rfl
      rw [readFrom, hc]

/-- Marks that are distinct and new are all taken, in any order. -/
theorem readFrom_append {marks : List Mark} {found : Marks} (offset : Nat) (rest : List Char)
    (hnodup : marks.Nodup) (hnew : ∀ mark ∈ marks, found.contains mark = false) :
    found.readFrom offset (marks.map Mark.toChar ++ rest) =
      (marks.foldl insert found).readFrom
        (offset + Text.byteLength (marks.map Mark.toChar)) rest := by
  induction marks generalizing found offset with
  | nil => rfl
  | cons mark marks ih =>
      obtain ⟨hmark, hnodup⟩ := List.nodup_cons.mp hnodup
      have hnew' : ∀ other ∈ marks, (found.insert mark).contains other = false := by
        intro other hother
        have hne : other ≠ mark := by
          intro heq
          exact hmark (heq ▸ hother)
        simp [contains_insert, hne, hnew other (by simp [hother])]
      have hfirst := hnew mark (by simp)
      simp only [List.map_cons, List.cons_append, readFrom, Mark.ofChar?_toChar, hfirst]
      simpa [Nat.add_assoc] using ih (offset + mark.toChar.utf8Size) hnodup hnew'

theorem exists_of_readFrom {found result : Marks} {offset : Nat} {rest : List Char}
    {after : Input} (h : found.readFrom offset rest = .ok result after) :
    ∃ marks : List Mark, marks.Nodup ∧ (∀ mark ∈ marks, found.contains mark = false) ∧
      Input.Reads ⟨offset, rest⟩ (marks.map Mark.toChar) after ∧ Ended after ∧
      result = marks.foldl insert found := by
  induction rest generalizing found offset with
  | nil =>
      cases h
      exact ⟨[], .nil, by simp, .refl _, by simp [Ended, Input.Stops], rfl⟩
  | cons c rest ih =>
      rw [readFrom] at h
      split at h
      · rename_i hc
        cases h
        exact ⟨[], .nil, by simp, .refl _, by simp [Ended, Input.Stops, hc], rfl⟩
      · rename_i mark hc
        obtain rfl := Mark.ofChar?_eq_some_iff.mp hc
        split at h
        · cases h
        · rename_i hfound
          obtain ⟨marks, hnodup, hnew, hreads, hended, rfl⟩ := ih h
          have hnew' : ∀ other ∈ marks, other ≠ mark ∧ found.contains other = false := by
            intro other hother
            simpa [contains_insert] using hnew other hother
          refine ⟨mark :: marks, List.nodup_cons.mpr ⟨?_, hnodup⟩, ?_, ?_, hended, rfl⟩
          · exact fun hmark => (hnew' mark hmark).1 rfl
          · intro other hother
            rcases List.mem_cons.mp hother with rfl | hother
            · simpa using hfound
            · exact (hnew' other hother).2
          · exact (Input.reads_cons rfl).append hreads

end Marks

namespace Reader

theorem marks_eq_ok_iff {found : Marks} {input after : Input} :
    marks input = .ok found after ↔
      ∃ written : List Mark, written.Nodup ∧ input.Reads (written.map Mark.toChar) after ∧
        Marks.Ended after ∧ found = written.foldl Marks.insert {} := by
  constructor
  · intro h
    obtain ⟨written, hnodup, -, hreads, hended, hfound⟩ := Marks.exists_of_readFrom h
    exact ⟨written, hnodup, hreads, hended, hfound⟩
  · intro h
    obtain ⟨written, hnodup, ⟨hrest, hoffset⟩, hended, rfl⟩ := h
    have hnew : ∀ mark ∈ written, ({} : Marks).contains mark = false := by
      intro mark _
      cases mark with
      | relative => rfl
      | flag flag => exact Flags.contains_empty flag
    rw [marks, hrest, Marks.readFrom_append _ _ hnodup hnew, ← hoffset]
    exact Marks.readFrom_of_ended hended

theorem relative_foldl_insert (written : List Mark) :
    (written.foldl Marks.insert {}).relative = decide (.relative ∈ written) := by
  simpa [Marks.contains] using Marks.contains_foldl_insert written {} .relative

theorem flags_foldl_insert (written : List Mark) :
    (written.foldl Marks.insert {}).flags = .ofList (written.filterMap Mark.flag?) := by
  apply Flags.ext_contains
  intro flag
  have h := Marks.contains_foldl_insert written {} (.flag flag)
  simp only [Marks.contains] at h
  rw [h, Flags.contains_ofList]
  simp [Mark.flag?_eq_some_iff]

/-! ## Conversions -/

theorem conversion_of_cons {input : Input} {c : Char} {rest : List Char}
    (h : input.rest = c :: rest) (ht : c ≠ 't') (hT : c ≠ 'T') :
    conversion input =
      match Conversion.ofChar? c with
      | some found => .ok (found, c.isUpper) ⟨input.offset + c.utf8Size, rest⟩
      | none => .error (.unknownConversion (some c)) ⟨input.offset + c.utf8Size, rest⟩ := by
  simp only [conversion, Bind.bind, EStateM.bind, next_eq_ok h, ht, hT, or_self, ↓reduceIte]
  cases Conversion.ofChar? c <;> rfl

theorem conversion_of_date {input : Input} {c : Char} {rest : List Char}
    (h : input.rest = c :: rest) (hc : c = 't' ∨ c = 'T') :
    conversion input =
      match rest with
      | [] => .error (.unknownDateSuffix none) ⟨input.offset + c.utf8Size, []⟩
      | d :: rest =>
          match DateField.ofChar? d with
          | some field => .ok (.dateTime field, decide (c = 'T'))
              ⟨input.offset + c.utf8Size + d.utf8Size, rest⟩
          | none => .error (.unknownDateSuffix (some d))
              ⟨input.offset + c.utf8Size + d.utf8Size, rest⟩ := by
  simp only [conversion, Bind.bind, EStateM.bind, next_eq_ok h, hc, ↓reduceIte]
  cases rest with
  | nil => rfl
  | cons d rest =>
      have hnext : next ⟨input.offset + c.utf8Size, d :: rest⟩ = .ok (some d) _ := next_eq_ok rfl
      simp only [hnext, Option.bind_some]
      cases DateField.ofChar? d <;> rfl

theorem reads_of_conversion {conv : Conversion} {uppercase : Bool} {input after : Input}
    (h : conversion input = .ok (conv, uppercase) after) :
    input.Reads (conv.written uppercase) after ∧
      (uppercase = true → conv.hasUppercase = true) := by
  cases hrest : input.rest with
  | nil =>
      obtain ⟨offset, rest⟩ := input
      subst hrest
      cases h
  | cons c rest =>
      by_cases hc : c = 't' ∨ c = 'T'
      · rw [conversion_of_date hrest hc] at h
        cases rest with
        | nil => cases h
        | cons d rest =>
            dsimp only at h
            split at h
            · rename_i field hfield
              cases h
              obtain rfl := DateField.ofChar?_eq_some_iff.mp hfield
              rw [Conversion.written_dateTime field hc]
              exact ⟨⟨hrest, by simp [Nat.add_assoc]⟩, fun _ => rfl⟩
            · cases h
      · obtain ⟨ht, hT⟩ := not_or.mp hc
        rw [conversion_of_cons hrest ht hT] at h
        split at h
        · rename_i found hfound
          cases h
          obtain ⟨hwritten, hupper⟩ := Conversion.ofChar?_eq_some_iff.mp hfound
          rw [hwritten]
          exact ⟨Input.reads_cons hrest, hupper⟩
        · cases h

theorem conversion_of_reads {conv : Conversion} {uppercase : Bool} {input after : Input}
    (h : input.Reads (conv.written uppercase) after)
    (hupper : uppercase = true → conv.hasUppercase = true) :
    conversion input = .ok (conv, uppercase) after := by
  by_cases hdate : ∃ field, conv = .dateTime field
  · obtain ⟨field, rfl⟩ := hdate
    obtain ⟨c, hc, rfl⟩ : ∃ c, (c = 't' ∨ c = 'T') ∧ uppercase = decide (c = 'T') := by
      cases uppercase with
      | false => exact ⟨'t', .inl rfl, by decide⟩
      | true => exact ⟨'T', .inr rfl, by decide⟩
    rw [Conversion.written_dateTime field hc] at h
    obtain ⟨hrest, hoffset⟩ := h
    rw [conversion_of_date hrest hc]
    obtain ⟨offset, rest⟩ := after
    obtain rfl : offset = _ := hoffset
    simp [DateField.ofChar?_toChar, Nat.add_assoc]
  · obtain ⟨c, hwritten, hc, ht, hT⟩ := Conversion.exists_written (not_exists.mp hdate) hupper
    have hfound : Conversion.ofChar? c = some conv :=
      Conversion.ofChar?_eq_some_iff.mpr ⟨hc ▸ hwritten, hc ▸ hupper⟩
    rw [hwritten] at h
    rw [conversion_of_cons h.1 ht hT, hfound, h.after_eq (Input.reads_cons h.1), hc]
    rfl

end Reader

end FormatCheck
