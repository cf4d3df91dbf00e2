import FormatCheck.Batch.Entry
import Mathlib.Data.List.TakeWhile

/-! # Writing batch files

Calls that are written to a batch file, one on each line, are read back without loss.
Format texts are escaped, so that no tab or line end of theirs is taken for one of the
file; the names of arguments have no blanks in them. -/

namespace FormatCheck

/-! ## Lines and words -/

namespace Text

theorem dropReturn_of_not_mem {line : List Char} (h : '\r' ∉ line) : dropReturn line = line := by
  rw [dropReturn, if_neg]
  intro hlast
  exact h (List.mem_of_getLast? hlast)

theorem lines_append_newline {line : List Char} (h : '\n' ∉ line) (rest : List Char) :
    lines (line ++ '\n' :: rest) = dropReturn line :: lines rest := by
  have hne := List.splitOn_ne_nil '\n' rest
  obtain ⟨last, hlast⟩ := Option.ne_none_iff_exists'.mp (mt List.getLast?_eq_none_iff.mp hne)
  simp only [lines, List.splitOn_append_cons_self_of_not_mem h, List.dropLast_cons_of_ne_nil hne,
    List.map_cons, List.cons_append, List.getLast?_cons, hlast, Option.getD_some]

/-- Lines that are each ended by a line feed are the lines of the text. -/
theorem lines_flatMap {written : List (List Char)}
    (h : ∀ line ∈ written, '\n' ∉ line ∧ '\r' ∉ line) :
    lines (written.flatMap (· ++ ['\n'])) = written := by
  -- The piece behind the last line feed is empty, and so it is no line.
  have hsplit : (written.flatMap (· ++ ['\n'])).splitOn '\n' = written ++ [[]] := by
    induction written with
    | nil => rfl
    | cons line written ih =>
        obtain ⟨hline, hrest⟩ := List.forall_mem_cons.mp h
        rw [List.flatMap_cons, List.append_assoc, List.singleton_append,
          List.splitOn_append_cons_self_of_not_mem hline.1, ih hrest, List.cons_append]
  have hdrop : written.map dropReturn = written.map id :=
    List.map_congr_left fun line hline => dropReturn_of_not_mem (h line hline).2
  simp [lines, hsplit, hdrop]

/-- Words with single blanks between them are the words of the text. -/
theorem words_intercalate {written : List (List Char)} (hne : ∀ word ∈ written, word ≠ [])
    (hblank : ∀ word ∈ written, ∀ c ∈ word, isBlank c = false) :
    words ([' '].intercalate written) = written := by
  induction written with
  | nil => simp [words]
  | cons word written ih =>
      obtain ⟨hword, hne⟩ := List.forall_mem_cons.mp hne
      obtain ⟨hletters, hblank⟩ := List.forall_mem_cons.mp hblank
      cases written with
      | nil =>
          rw [List.intercalate_singleton, words, List.splitOnP_eq_singleton hletters]
          simp [hword]
      | cons next written =>
          have hrest := ih hne hblank
          rw [words] at hrest ⊢
          rw [List.intercalate_cons_cons, List.append_assoc, List.singleton_append,
            List.splitOnP_append_cons_of_forall_mem hletters ' ' (by decide), List.filter_cons,
            hrest]
          simp [hword]

end Text

/-! ## Call sites -/

/-- The name of an argument as it may stand in a batch file. -/
structure ArgumentName where
  text : String
  nonempty : text ≠ ""
  notBlank : text.toList.any Text.isBlank = false

theorem ArgumentName.isBlank_eq_false {name : ArgumentName} {c : Char}
    (h : c ∈ name.text.toList) : Text.isBlank c = false := by
  simpa using List.any_eq_false.mp name.notBlank c h

/-- A call to be written. -/
structure CallSite where
  format : String
  arguments : List ArgumentName

namespace CallSite

/-- The names of the arguments, with single blanks between them. -/
def argumentChars (site : CallSite) : List Char :=
  [' '].intercalate (site.arguments.map (·.text.toList))

/-- The line of a call, without its end. -/
def line (site : CallSite) : List Char :=
  Escape.encode site.format.toList ++ '\t' :: site.argumentChars

/-- The call as it is read from a line. -/
def entry (site : CallSite) (number : Nat) : Entry :=
  ⟨number, site.format, site.arguments.map fun name => .ofSourceName name.text⟩

/-- The line is not taken for a blank line or a comment. -/
structure Visible (site : CallSite) : Prop where
  notBlank : site.line.all Text.isBlank = false
  notComment : site.line.find? (fun c => !Text.isBlank c) ≠ some '#'

end CallSite

/-- The text of a batch file with these calls. -/
def Batch.write (sites : List CallSite) : String :=
  String.ofList (sites.flatMap fun site => site.line ++ ['\n'])

/-! ## One line -/

/-- Escaped text has no tab and no line end. -/
theorem Escape.not_mem_encode {c : Char} (h : c = '\t' ∨ c = '\n' ∨ c = '\r') (cs : List Char) :
    c ∉ encode cs := by
  intro hmem
  obtain ⟨d, -, hd⟩ := List.mem_flatMap.mp hmem
  unfold encodeChar at hd
  split at hd
  case h_5 =>
    obtain rfl := List.mem_singleton.mp hd
    simp_all
  all_goals rcases h with rfl | rfl | rfl <;> simp at hd

namespace CallSite

/-- The only blanks between the tab and the line end are spaces. -/
theorem not_mem_argumentChars (site : CallSite) {c : Char} (hblank : Text.isBlank c = true)
    (hspace : c ≠ ' ') : c ∉ site.argumentChars := by
  intro hmem
  rcases Text.mem_intercalate hmem with heq | ⟨word, hword, hc⟩
  · exact hspace heq
  · obtain ⟨name, -, rfl⟩ := List.mem_map.mp hword
    rw [name.isBlank_eq_false hc] at hblank
    cases hblank

theorem not_mem_line (site : CallSite) : '\n' ∉ site.line ∧ '\r' ∉ site.line := by
  have hfeed : '\n' ∉ site.argumentChars := site.not_mem_argumentChars (by decide) (by decide)
  have hreturn : '\r' ∉ site.argumentChars := site.not_mem_argumentChars (by decide) (by decide)
  simp [line, Escape.not_mem_encode, hfeed, hreturn]

theorem words_argumentChars (site : CallSite) :
    Text.words site.argumentChars = site.arguments.map (·.text.toList) := by
  apply Text.words_intercalate
  · simp [ArgumentName.nonempty]
  · intro word hword c hc
    obtain ⟨name, -, rfl⟩ := List.mem_map.mp hword
    exact name.isBlank_eq_false hc

theorem Visible.isSkipped_eq {site : CallSite} (h : site.Visible) :
    Batch.isSkipped site.line = false := by
  have hfirst := List.find?_not_eq_head?_dropWhile Text.isBlank site.line
  unfold Batch.isSkipped
  split
  · rename_i hnil
    have hall : site.line.all Text.isBlank = true := by
      simpa using List.dropWhile_eq_nil_iff.mp hnil
    rw [h.notBlank] at hall
    cases hall
  · rename_i c rest hcons
    rw [hcons] at hfirst
    simpa using fun hcomment : c = '#' => h.notComment (hcomment ▸ hfirst)

/-- The line of a call is read as the call. -/
theorem parseLine_line (site : CallSite) (number : Nat) :
    Batch.parseLine site.line number = .ok (site.entry number) := by
  have htab : ∀ c ∈ Escape.encode site.format.toList, decide (c ≠ '\t') = true := by
    intro c hc
    simpa using ne_of_mem_of_not_mem hc (Escape.not_mem_encode (.inl rfl) _)
  have hformat : Batch.formatPart site.line = Escape.encode site.format.toList := by
    rw [Batch.formatPart, line, List.takeWhile_append_of_pos htab]
    simp
  have harguments : Batch.argumentPart site.line = site.argumentChars := by
    rw [Batch.argumentPart, line, List.dropWhile_append_of_pos htab]
    simp
  rw [Batch.parseLine, hformat, Escape.decode_encode, Batch.argumentNames, harguments,
    words_argumentChars]
  simp [entry, Function.comp_def]

end CallSite

/-! ## Whole files -/

namespace Batch

theorem lines_write (sites : List CallSite) :
    Text.lines (write sites).toList = sites.map CallSite.line := by
  have htext : (write sites).toList = (sites.map CallSite.line).flatMap (· ++ ['\n']) := by
    simp [write, List.flatMap_map]
  rw [htext]
  apply Text.lines_flatMap
  intro line hline
  obtain ⟨site, -, rfl⟩ := List.mem_map.mp hline
  exact site.not_mem_line

theorem callLines_write {sites : List CallSite} (h : ∀ site ∈ sites, site.Visible) :
    callLines (write sites) = (sites.zipIdx 1).map fun (site, number) => (site.line, number) := by
  have hkept : ∀ numbered ∈ (sites.zipIdx 1).map fun (site, number) => (site.line, number),
      (!isSkipped numbered.1) = true := by
    intro numbered hmem
    obtain ⟨⟨site, number⟩, hsite, rfl⟩ := List.mem_map.mp hmem
    simp [(h site (List.fst_mem_of_mem_zipIdx hsite)).isSkipped_eq]
  rw [callLines, lines_write, List.zipIdx_map]
  exact List.filter_eq_self.mpr hkept

end Batch

/-- Calls that are written to a batch file are read from it in order, each with the
number of its line, its format text and its arguments. -/
theorem Batch.parse_write (sites : List CallSite) (h : ∀ site ∈ sites, site.Visible) :
    Batch.parse (Batch.write sites) =
      .ok ((sites.zipIdx 1).map fun (site, number) => site.entry number) := by
  have hparse : ((fun (line, number) => parseLine line number) ∘
      fun ((site, number) : CallSite × Nat) => (site.line, number)) =
        fun numbered => pure (numbered.1.entry numbered.2) :=
    funext fun (site, number) => site.parseLine_line number
  rw [parse, callLines_write h, List.mapM_map, hparse, List.mapM_pure]
  rfl

/-- A tab, and a backslash in front of an `n`, come back as they were; a call without a
format text is still one. -/
theorem Batch.parse_write_escaped :
    Batch.parse "%d\\t\\\\n\tint long[]\n\tx\n" =
      .ok [⟨1, "%d\t\\n", [⟨"I"⟩, ⟨"[J"⟩]⟩, ⟨2, "", [⟨"x"⟩]⟩] := by
  have hread := Batch.parse_write
    [⟨"%d\t\\n", [⟨"int", by decide, by decide⟩, ⟨"long[]", by decide, by decide⟩]⟩,
      ⟨"", [⟨"x", by decide, by decide⟩]⟩]
    (List.forall_mem_cons.mpr ⟨⟨by decide, by decide⟩,
      List.forall_mem_singleton.mpr ⟨by decide, by decide⟩⟩)
  refine Eq.trans (congrArg Batch.parse ?_) (hread.trans ?_)
  · decide +kernel
  · decide +kernel

end FormatCheck
