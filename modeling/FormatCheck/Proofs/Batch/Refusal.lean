import FormatCheck.Proofs.Batch.Escapes
import FormatCheck.Proofs.Batch.Writing
import Mathlib.Data.List.Forall2

/-! # Batch files that are refused

A batch file is read unless the format text of one of its calls has a backslash that starts no
escape. The first such backslash is reported, with the number of its line. What stands in blank
lines and comments, and among the names of arguments, is never a reason to refuse a file. -/

namespace FormatCheck

/-! ## Lines -/

namespace Text

/-- The lines of a text. A line feed ends a line, together with a carriage return before it;
what follows the last line feed is a line unless it is empty. -/
inductive HasLines : List Char → List (List Char) → Prop where
  | nil : HasLines [] []
  | last {line : List Char} (hne : line ≠ []) (hfeed : '\n' ∉ line) : HasLines line [line]
  | feed {line rest : List Char} {lines : List (List Char)} (hfeed : '\n' ∉ line)
      (hreturn : ∀ front, line ≠ front ++ ['\r']) (h : HasLines rest lines) :
      HasLines (line ++ '\n' :: rest) (line :: lines)
  | returnFeed {line rest : List Char} {lines : List (List Char)} (hfeed : '\n' ∉ line)
      (h : HasLines rest lines) : HasLines (line ++ '\r' :: '\n' :: rest) (line :: lines)

theorem dropReturn_of_ne {line : List Char} (h : ∀ front, line ≠ front ++ ['\r']) :
    dropReturn line = line := by
  rw [dropReturn, if_neg]
  intro hlast
  obtain ⟨front, hfront⟩ := List.getLast?_eq_some_iff.mp hlast
  exact h front hfront

theorem dropReturn_append_return (line : List Char) : dropReturn (line ++ ['\r']) = line := by
  simp [dropReturn]

theorem lines_of_not_mem {line : List Char} (h : '\n' ∉ line) :
    lines line = if line = [] then [] else [line] := by
  have hline : ∀ c ∈ line, (c == '\n') = false := by
    intro c hc
    simpa using ne_of_mem_of_not_mem hc h
  have hsplit : line.splitOn '\n' = [line] := List.splitOnP_eq_singleton hline
  by_cases hnil : line = []
  · simp [hnil, lines]
  · simp [lines, hsplit, hnil, Option.filter]

theorem HasLines.lines_eq {cs : List Char} {ls : List (List Char)} (h : HasLines cs ls) :
    lines cs = ls := by
  induction h with
  | nil => rfl
  | last hne hfeed => rw [lines_of_not_mem hfeed, if_neg hne]
  | feed hfeed hreturn _ ih => rw [lines_append_newline hfeed, dropReturn_of_ne hreturn, ih]
  | @returnFeed line rest _ hfeed _ ih =>
      have hsplit : line ++ '\r' :: '\n' :: rest = (line ++ ['\r']) ++ '\n' :: rest := by simp
      rw [hsplit, lines_append_newline (by simp [hfeed]), dropReturn_append_return, ih]

theorem hasLines_lines (cs : List Char) : HasLines cs (lines cs) := by
  induction hlength : cs.length using Nat.strongRecOn generalizing cs with
  | ind length ih =>
      by_cases hmem : '\n' ∈ cs
      · obtain ⟨line, rest, rfl, hfeed⟩ := List.eq_append_cons_of_mem hmem
        have hrest := ih rest.length (by simp [← hlength]; omega) rest rfl
        rw [lines_append_newline hfeed]
        by_cases hreturn : ∃ front, line = front ++ ['\r']
        · obtain ⟨front, rfl⟩ := hreturn
          rw [dropReturn_append_return]
          have hfront : '\n' ∉ front := fun h => hfeed (by simp [h])
          simpa using HasLines.returnFeed hfront hrest
        · have hreturn : ∀ front, line ≠ front ++ ['\r'] := not_exists.mp hreturn
          rw [dropReturn_of_ne hreturn]
          exact .feed hfeed hreturn hrest
      · rw [lines_of_not_mem hmem]
        by_cases hnil : cs = []
        · rw [if_pos hnil, hnil]
          exact .nil
        · rw [if_neg hnil]
          exact .last hnil hmem

end Text

/-! ## Calls -/

namespace Batch

/-- The line is blank, or the first character on it that is not blank is a `#`. -/
def Skipped (line : List Char) : Prop :=
  (∀ c ∈ line, Text.isBlank c = true) ∨
    ∃ blanks rest, line = blanks ++ '#' :: rest ∧ ∀ c ∈ blanks, Text.isBlank c = true

/-- The format text as it stands on a line: all of it, or what is before the first tab. -/
def HoldsFormat (line written : List Char) : Prop :=
  '\t' ∉ written ∧ (line = written ∨ ∃ rest, line = written ++ '\t' :: rest)

/-- The format texts of the calls on lines, with the numbers of the lines. Lines that are
skipped are counted, and hold none. -/
inductive Numbered : Nat → List (List Char) → List (List Char × Nat) → Prop where
  | nil {number : Nat} : Numbered number [] []
  | skipped {number : Nat} {line : List Char} {lines : List (List Char)}
      {formats : List (List Char × Nat)} (hline : Skipped line)
      (h : Numbered (number + 1) lines formats) : Numbered number (line :: lines) formats
  | call {number : Nat} {line written : List Char} {lines : List (List Char)}
      {formats : List (List Char × Nat)} (hline : ¬Skipped line)
      (hformat : HoldsFormat line written) (h : Numbered (number + 1) lines formats) :
      Numbered number (line :: lines) ((written, number) :: formats)

/-- The format texts of a batch file as they are written, with the numbers of their lines. -/
def Formats (text : String) (formats : List (List Char × Nat)) : Prop :=
  ∃ lines, Text.HasLines text.toList lines ∧ Numbered 1 lines formats

theorem isSkipped_iff {line : List Char} : isSkipped line = true ↔ Skipped line := by
  constructor
  · intro h
    unfold isSkipped at h
    split at h
    · rename_i hnil
      exact .inl (List.dropWhile_eq_nil_iff.mp hnil)
    · rename_i c rest hcons
      obtain rfl : c = '#' := by simpa using h
      refine .inr ⟨line.takeWhile Text.isBlank, rest, ?_, fun _ => List.mem_takeWhile_imp⟩
      rw [← hcons, List.takeWhile_append_dropWhile]
  · intro h
    rcases h with hall | ⟨blanks, rest, rfl, hblanks⟩
    · rw [isSkipped, List.dropWhile_eq_nil_iff.mpr hall]
    · have hcomment : ¬Text.isBlank '#' = true := by decide
      rw [isSkipped, List.dropWhile_append_of_pos hblanks, List.dropWhile_cons_of_neg hcomment]
      rfl

theorem holdsFormat_iff {line written : List Char} :
    HoldsFormat line written ↔ formatPart line = written := by
  constructor
  · rintro ⟨htab, hline⟩
    have hpos : ∀ c ∈ written, decide (c ≠ '\t') = true := by
      intro c hc
      simpa using ne_of_mem_of_not_mem hc htab
    rcases hline with rfl | ⟨rest, rfl⟩
    · exact List.takeWhile_eq_self_iff.mpr hpos
    · rw [formatPart, List.takeWhile_append_of_pos hpos]
      simp
  · rintro rfl
    have hline : formatPart line ++ line.dropWhile (· ≠ '\t') = line :=
      List.takeWhile_append_dropWhile
    refine ⟨fun hmem => by simpa using List.mem_takeWhile_imp hmem, ?_⟩
    cases hrest : line.dropWhile (· ≠ '\t') with
    | nil =>
        left
        rwa [hrest, List.append_nil, eq_comm] at hline
    | cons c rest =>
        right
        have hc := List.head?_dropWhile_not (· ≠ '\t') line
        rw [hrest] at hc
        obtain rfl : c = '\t' := by simpa using hc
        exact ⟨rest, by rw [← hrest, hline]⟩

theorem numbered_iff {number : Nat} {lines : List (List Char)}
    {formats : List (List Char × Nat)} :
    Numbered number lines formats ↔
      ((lines.zipIdx number).filter fun (line, _) => !isSkipped line).map
        (fun (line, number) => (formatPart line, number)) = formats := by
  induction lines generalizing number formats with
  | nil =>
      constructor
      · rintro ⟨⟩
        rfl
      · rintro rfl
        exact .nil
  | cons line lines ih =>
      by_cases hline : Skipped line
      · have hskipped := isSkipped_iff.mpr hline
        simp only [List.zipIdx_cons, List.filter_cons, hskipped, Bool.not_true,
          Bool.false_eq_true, if_false, ← ih]
        constructor
        · intro h
          cases h with
          | skipped _ h => exact h
          | call hcall _ _ => exact absurd hline hcall
        · exact .skipped hline
      · have hkept : isSkipped line = false := by simpa using mt isSkipped_iff.mp hline
        simp only [List.zipIdx_cons, List.filter_cons, hkept, Bool.not_false, if_true,
          List.map_cons]
        constructor
        · intro h
          cases h with
          | skipped hskipped _ => exact absurd hskipped hline
          | call _ hformat h => rw [holdsFormat_iff.mp hformat, ih.mp h]
        · rintro rfl
          exact .call hline (holdsFormat_iff.mpr rfl) (ih.mpr rfl)

theorem formats_iff {text : String} {formats : List (List Char × Nat)} :
    Formats text formats ↔
      (callLines text).map (fun (line, number) => (formatPart line, number)) = formats := by
  rw [callLines, ← numbered_iff]
  constructor
  · rintro ⟨lines, hlines, h⟩
    rwa [hlines.lines_eq]
  · intro h
    exact ⟨_, Text.hasLines_lines _, h⟩

/-! ## Whole files -/

section

variable {α β ε : Type} {f : α → Except ε β} {a : α} {as : List α}

theorem mapM_cons_of_ok {b : β} (h : f a = .ok b) :
    (a :: as).mapM f = (as.mapM f).map (b :: ·) := by
  rw [List.mapM_cons, h]
  rfl

theorem mapM_cons_of_error {e : ε} (h : f a = .error e) : (a :: as).mapM f = .error e := by
  rw [List.mapM_cons, h]
  rfl

theorem forall₂_of_mapM {bs : List β} (h : as.mapM f = .ok bs) :
    List.Forall₂ (fun a b => f a = .ok b) as bs := by
  induction as generalizing bs with
  | nil =>
      cases h
      exact .nil
  | cons a as ih =>
      cases hf : f a with
      | error e =>
          rw [mapM_cons_of_error hf] at h
          cases h
      | ok b =>
          rw [mapM_cons_of_ok hf] at h
          cases hrest : as.mapM f with
          | error e =>
              rw [hrest] at h
              cases h
          | ok rest =>
              rw [hrest] at h
              cases h
              exact .cons hf (ih hrest)

/-- The error is that of the first element that is not mapped. -/
theorem mapM_eq_error_iff {e : ε} :
    as.mapM f = .error e ↔ ∃ before a behind, as = before ++ a :: behind ∧
      (∀ earlier ∈ before, ∃ b, f earlier = .ok b) ∧ f a = .error e := by
  constructor
  · intro h
    induction as with
    | nil => cases h
    | cons a as ih =>
        cases hf : f a with
        | error found =>
            rw [mapM_cons_of_error hf] at h
            cases h
            exact ⟨[], a, as, rfl, by simp, hf⟩
        | ok b =>
            rw [mapM_cons_of_ok hf] at h
            cases hrest : as.mapM f with
            | ok rest =>
                rw [hrest] at h
                cases h
            | error found =>
                rw [hrest] at h
                cases h
                obtain ⟨before, first, behind, rfl, hbefore, hfirst⟩ := ih hrest
                exact ⟨a :: before, first, behind, rfl,
                  List.forall_mem_cons.mpr ⟨⟨b, hf⟩, hbefore⟩, hfirst⟩
  · rintro ⟨before, a, behind, rfl, hbefore, hf⟩
    induction before with
    | nil => exact mapM_cons_of_error hf
    | cons earlier before ih =>
        obtain ⟨⟨b, hb⟩, hbefore⟩ := List.forall_mem_cons.mp hbefore
        rw [List.cons_append, mapM_cons_of_ok hb, ih hbefore]
        rfl

end

/-- The first format text that is not well written, and what is wrong with it. -/
def FirstFault (formats : List (List Char × Nat)) (error : BatchError) : Prop :=
  ∃ before written behind, formats = before ++ (written, error.line) :: behind ∧
    (∀ earlier ∈ before, Escape.IsWritten earlier.1) ∧ Escape.FailsWith written error.fault

/-- The call that is read from a format text has the number of its line, and the text that the
format text stands for. -/
structure ReadAs (written : List Char × Nat) (entry : Entry) : Prop where
  line_eq : entry.line = written.2
  stands : Escape.Stands written.1 entry.format.toList

theorem readAs_of_parseLine {line : List Char} {number : Nat} {entry : Entry}
    (h : parseLine line number = .ok entry) : ReadAs (formatPart line, number) entry := by
  cases hdecode : Escape.decode (formatPart line) with
  | error fault => simp [parseLine, hdecode] at h
  | ok format =>
      simp only [parseLine, hdecode, Except.ok.injEq] at h
      subst h
      refine ⟨rfl, ?_⟩
      rw [String.toList_ofList]
      exact Escape.decode_eq_ok_iff.mp hdecode

theorem exists_parseLine_iff {line : List Char} {number : Nat} :
    (∃ entry, parseLine line number = .ok entry) ↔ Escape.IsWritten (formatPart line) := by
  constructor
  · rintro ⟨entry, h⟩
    exact ⟨_, (readAs_of_parseLine h).stands⟩
  · rintro ⟨meant, hmeant⟩
    simp [parseLine, hmeant.decode_eq]

theorem parseLine_eq_error_iff {line : List Char} {number : Nat} {error : BatchError} :
    parseLine line number = .error error ↔
      number = error.line ∧ Escape.FailsWith (formatPart line) error.fault := by
  rw [← Escape.decode_eq_error_iff]
  obtain ⟨errorLine, fault⟩ := error
  cases hdecode : Escape.decode (formatPart line) <;> simp [parseLine, hdecode]

/-- A file is refused for the first format text that is not well written. -/
theorem parse_eq_error_iff {text : String} {formats : List (List Char × Nat)}
    (h : Formats text formats) {error : BatchError} :
    parse text = .error error ↔ FirstFault formats error := by
  obtain rfl := formats_iff.mp h
  rw [parse, mapM_eq_error_iff]
  constructor
  · rintro ⟨before, call, behind, hcalls, hbefore, hcall⟩
    obtain ⟨hnumber, hfault⟩ := parseLine_eq_error_iff.mp hcall
    refine ⟨before.map fun call => (formatPart call.1, call.2), formatPart call.1,
      behind.map fun call => (formatPart call.1, call.2), ?_, ?_, hfault⟩
    · simp [hcalls, hnumber]
    · intro earlier hearlier
      obtain ⟨call, hmem, rfl⟩ := List.mem_map.mp hearlier
      exact exists_parseLine_iff.mp (hbefore call hmem)
  · rintro ⟨before, written, behind, hformats, hbefore, hfault⟩
    obtain ⟨front, back, hcalls, rfl, hback⟩ := List.map_eq_append_iff.mp hformats
    obtain ⟨call, rest, rfl, hcall, rfl⟩ := List.map_eq_cons_iff.mp hback
    obtain ⟨rfl, hnumber⟩ := Prod.mk.inj hcall
    refine ⟨front, call, rest, hcalls, ?_, parseLine_eq_error_iff.mpr ⟨hnumber, hfault⟩⟩
    intro earlier hearlier
    exact exists_parseLine_iff.mpr (hbefore _ (List.mem_map_of_mem hearlier))

/-- A file that is not refused has a call for each of its format texts. -/
theorem forall₂_of_parse {text : String} {formats : List (List Char × Nat)}
    {entries : List Entry} (h : Formats text formats) (hparse : parse text = .ok entries) :
    List.Forall₂ ReadAs formats entries := by
  obtain rfl := formats_iff.mp h
  rw [List.forall₂_map_left_iff]
  exact (forall₂_of_mapM hparse).imp fun _ _ hread => readAs_of_parseLine hread

end Batch

/-- A batch file has one list of format texts with the numbers of their lines. It is read if and
only if all of them are well written, and then has a call for each of them, in order; otherwise
the first one that is not is refused, for the first backslash in it that starts no escape. -/
theorem Batch.parse_refuses_first_fault (text : String) :
    ∃ formats, Formats text formats ∧ (∀ others, Formats text others → others = formats) ∧
      ((∃ entries, Batch.parse text = .ok entries) ↔
        ∀ written ∈ formats, Escape.IsWritten written.1) ∧
      (∀ entries, Batch.parse text = .ok entries → List.Forall₂ ReadAs formats entries) ∧
      ∀ error, Batch.parse text = .error error ↔ FirstFault formats error := by
  obtain ⟨formats, hformats⟩ : ∃ formats, Formats text formats := ⟨_, formats_iff.mpr rfl⟩
  refine ⟨formats, hformats, ?_, ⟨?_, ?_⟩, ?_, ?_⟩
  · intro others hothers
    rw [← formats_iff.mp hothers, formats_iff.mp hformats]
  · rintro ⟨entries, hparse⟩
    have hwritten : List.Forall₂ (fun written entry => Escape.IsWritten written.1 ∧
        ReadAs written entry) formats entries :=
      (forall₂_of_parse hformats hparse).imp fun _ _ hread => ⟨⟨_, hread.stands⟩, hread⟩
    exact ((List.forall₂_and_left _ _).mp hwritten).1
  · intro hwritten
    cases hparse : Batch.parse text with
    | ok entries => exact ⟨entries, rfl⟩
    | error error =>
        obtain ⟨before, written, behind, hsplit, -, hfault⟩ :=
          (parse_eq_error_iff hformats).mp hparse
        obtain ⟨meant, hmeant⟩ := hwritten (written, error.line) (by simp [hsplit])
        cases hmeant.decode_eq.symm.trans hfault.decode_eq
  · intro entries hparse
    exact forall₂_of_parse hformats hparse
  · intro error
    exact parse_eq_error_iff hformats

end FormatCheck
