import FormatCheck.Proofs.Format.Decomposition

/-! # Texts put together

Where a text stands changes nothing but the ranges of what is read, and a specifier is
read without regard to what follows it. A text can therefore be parsed in two parts,
as long as no run of plain text is cut. -/

namespace FormatCheck

namespace Input

/-- The same text further along. -/
def shift (input : Input) (bytes : Nat) : Input :=
  ⟨input.offset + bytes, input.rest⟩

theorem Reads.shift {before after : Input} {text : List Char} (h : before.Reads text after)
    (bytes : Nat) : (before.shift bytes).Reads text (after.shift bytes) :=
  ⟨h.1, by simp only [Input.shift, h.2, Nat.add_right_comm before.offset bytes]⟩

theorem takeWhile_shift (p : Char → Bool) (input : Input) (bytes : Nat) :
    (input.shift bytes).takeWhile p =
      ((input.takeWhile p).1, (input.takeWhile p).2.shift bytes) := by
  simp only [takeWhile, shift, Nat.add_right_comm input.offset bytes]

end Input

/-! ## Readers do not look at offsets -/

namespace Reader

/-- The same result further along. -/
def shiftResult {α : Type} (bytes : Nat) :
    EStateM.Result Fault Input α → EStateM.Result Fault Input α
  | .ok a after => .ok a (after.shift bytes)
  | .error fault after => .error fault (after.shift bytes)

/-- The reader gives the same wherever the text stands. -/
def Shifts {α : Type} (reader : Reader α) : Prop :=
  ∀ (input : Input) (bytes : Nat), reader (input.shift bytes) = shiftResult bytes (reader input)

theorem shifts_pure {α : Type} (a : α) : Shifts (pure a : Reader α) :=
  fun _ _ => rfl

theorem shifts_throw {α : Type} (fault : Fault) : Shifts (throw fault : Reader α) :=
  fun _ _ => rfl

theorem Shifts.bind {α β : Type} {reader : Reader α} {next : α → Reader β}
    (hr : Shifts reader) (hn : ∀ a, Shifts (next a)) : Shifts (reader >>= next) := by
  intro input bytes
  simp only [Bind.bind, EStateM.bind, hr input bytes]
  cases reader input with
  | ok a after => exact hn a after bytes
  | error fault after => rfl

theorem shifts_next : Shifts next := by
  intro input bytes
  obtain ⟨offset, rest⟩ := input
  cases rest with
  | nil => rfl
  | cons c rest =>
      simp only [next, Input.next?, Input.shift, shiftResult, Nat.add_right_comm offset bytes]

theorem shifts_lookahead : Shifts lookahead :=
  fun _ _ => rfl

theorem shifts_takeWhile (p : Char → Bool) : Shifts (takeWhile p) := by
  intro input bytes
  rw [takeWhile, Input.takeWhile_shift]
  rfl

theorem shifts_index : Shifts index := by
  intro input bytes
  by_cases hposition : PositionAhead input
  · obtain ⟨digits, rest, hne, hdigits, hrest⟩ := hposition
    let mid : Input := ⟨input.offset + Text.byteLength digits, '$' :: rest⟩
    have hmid : input.Reads digits mid := ⟨hrest, rfl⟩
    have hafter : mid.Reads ['$'] ⟨mid.offset + '$'.utf8Size, rest⟩ := Input.reads_cons rfl
    rw [index_of_positionAhead hne hdigits hmid hafter,
      index_of_positionAhead hne hdigits (hmid.shift bytes) (hafter.shift bytes)]
    split <;> rfl
  · have hshifted : ¬PositionAhead (input.shift bytes) := hposition
    rw [index_of_not_positionAhead hposition, index_of_not_positionAhead hshifted]
    rfl

theorem readFrom_shift (rest : List Char) (found : Marks) (offset bytes : Nat) :
    found.readFrom (offset + bytes) rest = shiftResult bytes (found.readFrom offset rest) := by
  induction rest generalizing found offset with
  | nil => rfl
  | cons c rest ih =>
      rw [Marks.readFrom, Marks.readFrom, Nat.add_right_comm offset bytes]
      split
      · rfl
      · split
        · rfl
        · exact ih _ _

theorem shifts_marks : Shifts marks :=
  fun input bytes => readFrom_shift input.rest {} input.offset bytes

theorem shifts_number : Shifts number := by
  refine (shifts_takeWhile _).bind fun digits => ?_
  split
  · exact shifts_pure _
  · split
    · exact shifts_pure _
    · exact shifts_throw _

theorem shifts_precision : Shifts precision := by
  refine shifts_lookahead.bind fun rest => ?_
  split
  · split
    · exact shifts_next.bind fun _ => shifts_number
    · exact shifts_pure _
  · exact shifts_pure _

theorem shifts_conversion : Shifts conversion := by
  refine shifts_next.bind fun found => ?_
  split
  · exact shifts_throw _
  · split
    · refine shifts_next.bind fun _ => ?_
      split
      · exact shifts_pure _
      · exact shifts_throw _
    · split
      · exact shifts_pure _
      · exact shifts_throw _

theorem shifts_specifier : Shifts specifier := by
  refine shifts_index.bind fun _ => shifts_marks.bind fun _ => shifts_number.bind fun _ =>
    shifts_precision.bind fun _ => shifts_conversion.bind fun _ => ?_
  dsimp only
  split
  · exact shifts_throw _
  · exact shifts_pure _

end Reader

/-! ## Readings -/

/-- The same step further along. -/
def Step.shift (bytes : Nat) : Step → Step
  | .done => .done
  | .segment found after => .segment (found.shift bytes) (after.shift bytes)
  | .failed fault => .failed (fault.shift bytes)

/-- The same reading further along. -/
def Reading.shift (reading : Reading) (bytes : Nat) : Reading :=
  ⟨reading.segments.map (·.shift bytes), reading.fault?.map (·.shift bytes)⟩

namespace Input

theorem step_shift (input : Input) (bytes : Nat) :
    (input.shift bytes).step = input.step.shift bytes := by
  cases hrest : input.rest with
  | nil =>
      rw [step, step, shift, hrest]
      rfl
  | cons c rest =>
      have hshifted : (input.shift bytes).rest = c :: rest := hrest
      by_cases hc : c = '%'
      · subst hc
        let opened : Input := ⟨input.offset + '%'.utf8Size, rest⟩
        have hopened : (⟨(input.shift bytes).offset + '%'.utf8Size, rest⟩ : Input) =
            opened.shift bytes := by
          simp only [shift, opened, Nat.add_right_comm input.offset bytes]
        rw [step_of_percent hrest, step_of_percent hshifted, hopened,
          Reader.shifts_specifier opened bytes]
        cases Reader.specifier opened <;> rfl
      · rw [step_of_plain hrest hc rfl,
          step_of_plain hshifted hc (takeWhile_shift _ input bytes)]
        rfl

theorem read_shift (input : Input) (bytes : Nat) :
    (input.shift bytes).read = input.read.shift bytes := by
  fun_induction read input with
  | case1 input hstep =>
      rw [read_eq, step_shift, hstep]
      rfl
  | case2 input fault hstep =>
      rw [read_eq, step_shift, hstep]
      rfl
  | case3 input segment after hstep segments fault? hread ih =>
      rw [read_eq, step_shift, hstep]
      simp only [Step.shift, ih, hread]
      rfl

end Input

/-! ## Places of segments -/

namespace Segment

theorem specifiers_append (segments others : List (Located Segment)) :
    specifiers (segments ++ others) = specifiers segments ++ specifiers others :=
  List.filterMap_append

theorem specifiers_cons_specifier (specifier : Specifier) (span : Span)
    (segments : List (Located Segment)) :
    specifiers (⟨.specifier specifier, span⟩ :: segments) =
      ⟨specifier, span⟩ :: specifiers segments := rfl

theorem specifiers_shift (segments : List (Located Segment)) (bytes : Nat) :
    specifiers (segments.map (·.shift bytes)) = (specifiers segments).map (·.shift bytes) := by
  rw [specifiers, specifiers, List.filterMap_map, List.map_filterMap]
  congr 1
  funext segment
  cases hvalue : segment.value.specifier? <;> simp [Located.shift, hvalue]

end Segment

namespace Chunk

theorem located_append (offset : Nat) (chunks others : List Chunk) :
    located offset (chunks ++ others) =
      located offset chunks ++ located (offset + Text.byteLength (text chunks)) others := by
  induction chunks generalizing offset with
  | nil => simp [located]
  | cons chunk chunks ih => simp [located, ih, Nat.add_assoc]

theorem map_shift_located (offset bytes : Nat) (chunks : List Chunk) :
    (located offset chunks).map (·.shift bytes) = located (offset + bytes) chunks := by
  induction chunks generalizing offset with
  | nil => rfl
  | cons chunk chunks ih =>
      rw [located, List.map_cons, ih, located, Nat.add_right_comm offset bytes]
      rfl

/-- Specifiers stand where they stood: joining moves no text. -/
theorem specifiers_joinTo (chunk : Chunk) (others : List Chunk) (offset : Nat) :
    Segment.specifiers (located offset (joinTo chunk others)) =
      Segment.specifiers (located offset (chunk :: others)) := by
  fun_cases joinTo chunk others with
  | case1 front hne hpercent back hne' hpercent' others =>
      simp [located, chars, segment, Segment.specifiers, Segment.specifier?, Nat.add_assoc]
  | case2 => rfl

theorem specifiers_joined (chunks : List Chunk) (offset : Nat) :
    Segment.specifiers (located offset (joined chunks)) =
      Segment.specifiers (located offset chunks) := by
  induction chunks generalizing offset with
  | nil => rfl
  | cons chunk chunks ih =>
      change Segment.specifiers (located offset (joinTo chunk (joined chunks))) = _
      rw [specifiers_joinTo, located, located, ← List.singleton_append, Segment.specifiers_append,
        ih, ← Segment.specifiers_append, List.singleton_append]

end Chunk

/-! ## Parsing in two parts -/

/-- Plain text at the end of chunks is the last segment. -/
theorem Chunk.exists_literal_of_getLast? {offset : Nat} {chunks : List Chunk} {chunk : Chunk}
    (h : chunk ∈ chunks.getLast?) (hplain : chunk.IsPlain) :
    ∃ text span, (located offset chunks).getLast? = some ⟨.literal text, span⟩ := by
  have hlast : ((located offset chunks).map Located.value).getLast? = some chunk.segment := by
    rw [map_value_located, List.getLast?_map, h, Option.map_some]
  rw [List.getLast?_map] at hlast
  obtain ⟨⟨value, span⟩, hlocated, rfl⟩ := Option.map_eq_some_iff.mp hlast
  cases chunk with
  | plain run _ _ => exact ⟨String.ofList run, span, hlocated⟩
  | specifier _ _ => cases hplain

/-- Chunks in front of a text move its reading. -/
theorem Reading.ofText_append {a b : String} {chunks : List Chunk}
    (htext : Chunk.text chunks = a.toList) (hmax : Chunk.Maximal chunks)
    (hlast : ∀ chunk ∈ chunks.getLast?, chunk.IsPlain → (Input.ofText b).EndsPlain) :
    Reading.ofText (a ++ b) =
      let behind := (Reading.ofText b).shift (Text.byteLength a.toList)
      ⟨Chunk.located 0 chunks ++ behind.segments, behind.fault?⟩ := by
  let after : Input := (Input.ofText b).shift (Text.byteLength a.toList)
  have hreads : (Input.ofText (a ++ b)).Reads (Chunk.text chunks) after := by
    simp [Input.Reads, Input.ofText, Input.shift, after, htext]
  have hend : ∀ chunk ∈ chunks.getLast?, chunk.IsPlain → after.EndsPlain := hlast
  rw [ofText, Input.read_of_chunks hreads hmax hend, Input.read_shift]
  rfl

/-- A text that is parsed, and one behind it, are parsed together as they are on their
own, unless plain text meets plain text. -/
theorem parse_append (a b : String) (segments : List (Located Segment))
    (ha : parse a = .ok segments)
    (hjoint : b = "" ∨ b.toList.head? = some '%' ∨
      ∀ text span, segments.getLast? ≠ some ⟨.literal text, span⟩) :
    parse (a ++ b) =
      match parse b with
      | .ok others => .ok (segments ++ others.map (·.shift (Text.byteLength a.toList)))
      | .error fault => .error (fault.shift (Text.byteLength a.toList)) := by
  obtain ⟨chunks, htext, hmax, rfl⟩ := parse_eq_ok_iff.mp ha
  have hlast : ∀ chunk ∈ chunks.getLast?, chunk.IsPlain → (Input.ofText b).EndsPlain := by
    intro chunk hchunk hplain
    rcases hjoint with rfl | hpercent | hliteral
    · exact Input.endsPlain_of_nil rfl
    · intro c hc
      obtain rfl : '%' = c := Option.some.inj (hpercent.symm.trans hc)
      rfl
    · obtain ⟨text, span, hlocated⟩ := Chunk.exists_literal_of_getLast? hchunk hplain
      exact absurd hlocated (hliteral text span)
  rw [parse, Reading.ofText_append htext hmax hlast, parse]
  obtain ⟨others, fault?⟩ := Reading.ofText b
  cases fault? <;> rfl

/-- The digits and the `$` behind `%5%` are plain text, and the fault moves with them. -/
theorem parse_append_lookahead :
    parse ("é%5%" ++ "2$d%.q") = .error ⟨.unknownConversion (some '.'), 8, 10⟩ := by
  have hfront : parse "é%5%" =
      .ok [⟨.literal "é", 0, 2⟩,
        ⟨.specifier ⟨.implicit, .empty, some 5, none, .percent, false⟩, 2, 5⟩] := by
    decide +kernel
  have hback : parse "2$d%.q" = .error ⟨.unknownConversion (some '.'), 3, 5⟩ := by
    decide +kernel
  rw [parse_append "é%5%" "2$d%.q" _ hfront (.inr (.inr (by simp))), hback]
  decide

/-- Two well-formed texts together are well formed. The specifiers of the first stand where
they stood, and behind them those of the second, even where plain text meets plain text. -/
theorem exists_parse_append {a b : String} {segments others : List (Located Segment)}
    (ha : parse a = .ok segments) (hb : parse b = .ok others) :
    ∃ together, parse (a ++ b) = .ok together ∧
      Segment.specifiers together = Segment.specifiers segments ++
        (Segment.specifiers others).map (·.shift (Text.byteLength a.toList)) := by
  obtain ⟨chunks, htext, -, rfl⟩ := parse_eq_ok_iff.mp ha
  obtain ⟨more, hmore, -, rfl⟩ := parse_eq_ok_iff.mp hb
  refine ⟨Chunk.located 0 (Chunk.joined (chunks ++ more)),
    parse_eq_ok_iff.mpr ⟨_, ?_, Chunk.maximal_joined _, rfl⟩, ?_⟩
  · rw [Chunk.text_joined, Chunk.text_append, htext, hmore, String.toList_append]
  · rw [Chunk.specifiers_joined, Chunk.located_append, Segment.specifiers_append,
      ← Segment.specifiers_shift, Chunk.map_shift_located, htext]

end FormatCheck
