import FormatCheck.Proofs.Argument.Classification
import FormatCheck.Proofs.Batch.Writing
import FormatCheck.Proofs.Call.Extension
import FormatCheck.Proofs.Format.Wording
import FormatCheck.Report.Diagnosis
import FormatCheck.Report.Writer

/-! # Reports in plain lines

Without colours a report consists of whole lines that can be seen. Nothing in a format text
adds a line or any control character to it: how many lines there are is a matter of how many
labels, notes, suggestions and fixes there are. -/

namespace FormatCheck

/-! ## Whole lines -/

namespace Text

/-- The text consists of lines that can be seen, each of them with a line feed at its end. -/
inductive VisibleLines : Nat → List Char → Prop where
  | nil : VisibleLines 0 []
  | cons {count : Nat} {line rest : List Char} (hline : Visible line)
      (hrest : VisibleLines count rest) : VisibleLines (count + 1) (line ++ '\n' :: rest)

namespace VisibleLines

variable {count more : Nat} {cs ds : List Char}

theorem line {line : List Char} (h : Visible line) : VisibleLines 1 (line ++ ['\n']) :=
  .cons h .nil

theorem append (hcs : VisibleLines count cs) (hds : VisibleLines more ds) :
    VisibleLines (count + more) (cs ++ ds) := by
  induction hcs with
  | nil => simpa using hds
  | cons hline _ ih =>
      rw [List.append_assoc, List.cons_append, Nat.add_right_comm]
      exact .cons hline ih

/-- Items that make a line each make as many lines as there are items. -/
theorem flatMap {α : Type} {items : List α} {f : α → List Char}
    (h : ∀ item ∈ items, VisibleLines 1 (f item)) :
    VisibleLines items.length (items.flatMap f) := by
  induction items with
  | nil => exact .nil
  | cons item items ih =>
      have hfirst := h item List.mem_cons_self
      have hrest := ih fun item hitem => h item (List.mem_cons_of_mem _ hitem)
      rw [List.flatMap_cons, List.length_cons, Nat.add_comm]
      exact hfirst.append hrest

theorem eq_newline_of_isControl (h : VisibleLines count cs) {c : Char} (hc : c ∈ cs)
    (hcontrol : isControl c = true) : c = '\n' := by
  induction h with
  | nil => cases hc
  | cons hline _ ih =>
      rcases List.mem_append.mp hc with hc | hc
      · rw [hline c hc] at hcontrol
        cases hcontrol
      · rcases List.mem_cons.mp hc with rfl | hc
        · rfl
        · exact ih hc

theorem length_lines (h : VisibleLines count cs) : (lines cs).length = count := by
  induction h with
  | nil => rfl
  | @cons count line rest hline _ ih =>
      have hfeed : '\n' ∉ line := by
        intro hmem
        cases hline '\n' hmem
      rw [lines_append_newline hfeed, List.length_cons, ih]

end VisibleLines

end Text

open Text

/-! ## Pieces without colours -/

/-- What a piece is without its style. -/
def Piece.chars : Piece → List Char
  | plain text => text.toList
  | styled _ text => text.toList

theorem Piece.toList_renderAll (pieces : List Piece) :
    (renderAll false pieces).toList = pieces.flatMap chars := by
  have hrender : ∀ piece : Piece, (piece.render false).toList = piece.chars := by
    intro piece
    cases piece <;> rfl
  rw [renderAll, String.toList_join, List.flatMap_map]
  exact List.flatMap_congr fun piece _ => hrender piece

namespace Diagnostic

/-- All texts of the diagnostic can be seen. -/
structure IsVisible (diagnostic : Diagnostic) : Prop where
  message : Visible diagnostic.message.toList
  labels : ∀ label ∈ diagnostic.labels, Visible label.message.toList
  notes : ∀ note ∈ diagnostic.notes, Visible note.toList
  suggestions : ∀ suggestion ∈ diagnostic.suggestions, Visible suggestion.toList
  fixes : ∀ fix ∈ diagnostic.fixes, Visible (fixHelp fix).toList

theorem visibleLines_header {diagnostic : Diagnostic} (h : Visible diagnostic.message.toList) :
    VisibleLines 1 (diagnostic.header.flatMap Piece.chars) := by
  have hcode : Visible diagnostic.code.text.toList := by
    cases diagnostic.code <;> exact visible_literal rfl
  have hline : diagnostic.header.flatMap Piece.chars =
      ("error[" ++ diagnostic.code.text ++ "]: " ++ diagnostic.message).toList ++ ['\n'] := by
    simp [header, Piece.chars]
  rw [hline]
  exact .line (.append (.framed hcode rfl rfl) h)

theorem visibleLines_labelLine {label : Label} (h : Visible label.message.toList) :
    VisibleLines 1 ((labelLine label).flatMap Piece.chars) := by
  have hspan : Visible label.span.text.toList :=
    .between (visible_decimal _) (visible_literal rfl) (visible_decimal _)
  have hline : (labelLine label).flatMap Piece.chars =
      ("  --> " ++ label.span.text ++ ": " ++ label.message).toList ++ ['\n'] := by
    simp [labelLine, Piece.chars]
  rw [hline]
  exact .line (.append (.framed hspan rfl rfl) h)

/-- Notes and help are written in the same way, behind a word of their own. -/
theorem visibleLines_remark (style : Style) {word remark : String} (hword : Visible word.toList)
    (hremark : Visible remark.toList) :
    VisibleLines 1 ([.plain "  = ", .styled style word, .plain (": " ++ remark ++ "\n")].flatMap
      Piece.chars) := by
  have hline : [.plain "  = ", .styled style word, .plain (": " ++ remark ++ "\n")].flatMap
      Piece.chars = ("  = " ++ word ++ ": " ++ remark).toList ++ ['\n'] := by
    simp [Piece.chars]
  rw [hline]
  exact .line (.append (.framed hword rfl rfl) hremark)

/-- The format text takes one line, between an empty one and the one with the marks. -/
theorem visibleLines_snippetLines (source : String) (span : Span) :
    VisibleLines 3 ((snippetLines source span).flatMap Piece.chars) := by
  let snippet := Snippet.ofSpan source.toList span
  let marks := List.replicate snippet.column ' ' ++ List.replicate (max snippet.width 1) '^'
  have hlines : (snippetLines source span).flatMap Piece.chars =
      "   |".toList ++ '\n' :: (("   | ".toList ++ snippet.line) ++ '\n' ::
        (("   | ".toList ++ marks) ++ '\n' :: [])) := by
    simp [snippetLines, Piece.chars, snippet, marks]
  have hmargin : Visible "   | ".toList := by decide
  have hmarks : Visible marks :=
    visible_append.mpr ⟨visible_replicate (by decide) _, visible_replicate (by decide) _⟩
  rw [hlines]
  refine .cons (by decide) (.cons ?_ (.cons ?_ .nil))
  · exact visible_append.mpr ⟨hmargin, visible_shown _⟩
  · exact visible_append.mpr ⟨hmargin, hmarks⟩

/-- A diagnostic with a label is written in as many lines as it has parts, and five more. -/
theorem visibleLines_pieces {diagnostic : Diagnostic} (h : diagnostic.IsVisible)
    (hlabels : diagnostic.labels ≠ []) (source : String) :
    VisibleLines (diagnostic.labels.length + diagnostic.notes.length +
        diagnostic.suggestions.length + diagnostic.fixes.length + 5)
      ((diagnostic.pieces (some source)).flatMap Piece.chars) := by
  obtain ⟨span, hspan⟩ : ∃ span, diagnostic.primarySpan? = some span := by
    obtain ⟨label, labels, hcons⟩ := List.exists_cons_of_ne_nil hlabels
    exact ⟨label.span, by simp [primarySpan?, hcons]⟩
  have hlabelLines : VisibleLines diagnostic.labels.length
      (diagnostic.labels.flatMap fun label => (labelLine label).flatMap Piece.chars) :=
    .flatMap fun label hlabel => visibleLines_labelLine (h.labels label hlabel)
  have hnoteLines : VisibleLines diagnostic.notes.length
      (diagnostic.notes.flatMap fun note => (noteLine note).flatMap Piece.chars) :=
    .flatMap fun note hnote => visibleLines_remark .bold (visible_literal rfl) (h.notes note hnote)
  have hhelpLines : VisibleLines (diagnostic.suggestions ++ diagnostic.fixes.map fixHelp).length
      ((diagnostic.suggestions ++ diagnostic.fixes.map fixHelp).flatMap fun help =>
        (helpLine help).flatMap Piece.chars) := by
    refine .flatMap fun help hhelp => visibleLines_remark .help (visible_literal rfl) ?_
    rcases List.mem_append.mp hhelp with hsuggestion | hfix
    · exact h.suggestions help hsuggestion
    · obtain ⟨fix, hmem, rfl⟩ := List.mem_map.mp hfix
      exact h.fixes fix hmem
  have hpieces : (diagnostic.pieces (some source)).flatMap Piece.chars =
      diagnostic.header.flatMap Piece.chars ++
        (diagnostic.labels.flatMap fun label => (labelLine label).flatMap Piece.chars) ++
        (snippetLines source span).flatMap Piece.chars ++
        (diagnostic.notes.flatMap fun note => (noteLine note).flatMap Piece.chars) ++
        ((diagnostic.suggestions ++ diagnostic.fixes.map fixHelp).flatMap fun help =>
          (helpLine help).flatMap Piece.chars) ++ ([] ++ ['\n']) := by
    simp only [pieces, hspan, List.flatMap_append, List.flatMap_assoc]
    rfl
  have hcount : diagnostic.labels.length + diagnostic.notes.length +
      diagnostic.suggestions.length + diagnostic.fixes.length + 5 =
        1 + diagnostic.labels.length + 3 + diagnostic.notes.length +
          (diagnostic.suggestions ++ diagnostic.fixes.map fixHelp).length + 1 := by
    rw [List.length_append, List.length_map]
    omega
  rw [hpieces, hcount]
  exact (((((visibleLines_header h.message).append hlabelLines).append
    (visibleLines_snippetLines source span)).append hnoteLines).append hhelpLines).append
      (.line visible_nil)

end Diagnostic

/-! ## Texts of failures -/

theorem Scalar.visible_text {scalar : Scalar} (h : Visible scalar.signatureChars) :
    Visible scalar.text.toList := by
  cases scalar with
  | primitive type => cases type <;> exact visible_literal rfl
  | object className =>
      have hname : Visible className.toList := h.mono fun c hc => by simp [signatureChars, hc]
      refine visible_ofList fun c hc => ?_
      obtain ⟨original, horiginal, rfl⟩ := List.mem_map.mp hc
      split
      · decide
      · exact hname original horiginal

/-- The source form of a signature has nothing in it that cannot be seen, unless the signature
has. -/
theorem Signature.visible_sourceText {signature : Signature}
    (h : Visible signature.text.toList) : Visible signature.sourceText.toList := by
  unfold sourceText
  split
  · rename_i type htype
    obtain ⟨-, -, htext⟩ := type?_eq_some_iff.mp htype
    rw [← htext, DeclaredType.signatureChars, visible_append] at h
    refine .append (Scalar.visible_text h.2) (visible_join fun part hpart => ?_)
    rw [List.eq_of_mem_replicate hpart]
    exact visible_literal rfl
  · exact .framed h rfl rfl

theorem Missing.visible_text (reason : Missing) : Visible reason.text.toList := by
  cases reason with
  | noPrevious => exact visible_literal rfl
  | outOfRange position supplied =>
      have hverb : Visible (if supplied = 1 then " is" else " are").toList := by
        split <;> exact visible_literal rfl
      exact .between (.append (.framed (visible_decimal _) rfl rfl) (visible_decimal _)) hverb
        (visible_literal rfl)

namespace Problem

/-- What a problem keeps of the format text and of the arguments can be seen. -/
def KeepsVisible : Problem → Prop
  | malformed fault => Visible fault.message.toList
  | mismatch _ _ _ actual _ => Visible actual.text.toList
  | missing _ | extra .. => True

variable {problem : Problem}

theorem visible_message (h : problem.KeepsVisible) : Visible problem.message.toList := by
  cases problem with
  | malformed fault => exact h
  | missing reason => exact .append (visible_literal rfl) reason.visible_text
  | mismatch specifier position expected actual reason =>
      have hreason : Visible reason.text.toList := by
        cases reason <;> exact visible_literal rfl
      exact .append (.between (.between (.framed specifier.visible_text rfl rfl)
        (visible_decimal _) (visible_literal rfl)) (Signature.visible_sourceText h)
        (visible_literal rfl)) hreason
  | extra supplied referenced =>
      exact .between (.append (visible_decimal _) (visible_literal rfl)) (visible_decimal _)
        (visible_literal rfl)

theorem visible_label (problem : Problem) : Visible problem.label.toList := by
  cases problem with
  | malformed fault => exact fault.visible_label
  | missing reason =>
      cases reason with
      | noPrevious => exact visible_literal rfl
      | outOfRange position supplied => exact .append (visible_literal rfl) (visible_decimal _)
  | mismatch specifier position expected actual reason =>
      have hname : Visible expected.name.toList := by
        cases expected <;> exact visible_literal rfl
      exact .framed hname rfl rfl
  | extra supplied referenced =>
      exact .between (.framed (visible_decimal _) rfl rfl) (visible_decimal _)
        (visible_literal rfl)

theorem visible_notes (h : problem.KeepsVisible) : ∀ note ∈ problem.notes, Visible note.toList := by
  cases problem with
  | malformed fault => exact fun note hnote => nomatch hnote
  | missing reason => exact fun note hnote => nomatch hnote
  | mismatch specifier position expected actual reason =>
      have htypes : Visible expected.types.toList := by
        cases expected <;> exact visible_literal rfl
      refine List.forall_mem_cons.mpr ⟨?_, List.forall_mem_singleton.mpr ?_⟩
      · exact .append (.framed (visible_decimal _) rfl rfl) (Signature.visible_sourceText h)
      · exact .append (.framed specifier.conversion.visible_text rfl rfl) htypes
  | extra supplied referenced =>
      refine List.forall_mem_singleton.mpr ?_
      exact .framed (visible_decimal _) rfl rfl

theorem visible_suggestions (problem : Problem) :
    ∀ suggestion ∈ problem.suggestions, Visible suggestion.toList := by
  cases problem with
  | malformed fault =>
      intro suggestion hmem
      exact Fault.visible_hint? (Option.mem_toList.mp hmem)
  | missing reason =>
      refine List.forall_mem_singleton.mpr ?_
      cases reason with
      | noPrevious => exact visible_literal rfl
      | outOfRange position supplied => exact visible_literal rfl
  | mismatch specifier position expected actual reason =>
      cases reason with
      | array => exact List.forall_mem_singleton.mpr (visible_literal rfl)
      | incompatible => exact fun suggestion hmem => nomatch hmem
      | invalid => exact fun suggestion hmem => nomatch hmem
  | extra supplied referenced => exact List.forall_mem_singleton.mpr (visible_literal rfl)

end Problem

/-! ## Fixes -/

theorem visible_fixHelp_replace {message snippet : String} (confidence : Confidence) (span : Span)
    (hmessage : Visible message.toList) (hsnippet : Visible snippet.toList) :
    Visible (Diagnostic.fixHelp (.replace message confidence span snippet)).toList := by
  unfold Diagnostic.fixHelp
  dsimp only [Fix.replace]
  split
  · exact hmessage
  · exact .between (.append hmessage (visible_literal rfl)) hsnippet (visible_literal rfl)

theorem Fault.visible_fix? {fault : Fault} {span : Span} {fix : Fix}
    (h : fault.fix? span = some fix) : Visible (Diagnostic.fixHelp fix).toList := by
  unfold fix? at h
  split at h
  · cases h
    exact visible_fixHelp_replace _ _ (visible_literal rfl) (visible_literal rfl)
  · split at h
    · cases h
      exact visible_fixHelp_replace _ _ (visible_literal rfl) (visible_literal rfl)
    · cases h
  · cases h

theorem Specifier.visible_fix? {specifier : Specifier} {actual : Signature} {span : Span}
    {fix : Fix} (hactual : Visible actual.text.toList)
    (h : specifier.fix? actual span = some fix) : Visible (Diagnostic.fixHelp fix).toList := by
  obtain ⟨conversion, -, rfl⟩ := Option.map_eq_some_iff.mp h
  have hreplacement := (specifier.withConversion conversion).visible_text
  exact visible_fixHelp_replace _ _ (.append (.framed hreplacement rfl rfl)
    (Signature.visible_sourceText hactual)) hreplacement

namespace Problem

theorem visible_fixes {problem : Problem} (h : problem.KeepsVisible) (span : Span) :
    ∀ fix ∈ problem.fixes span, Visible (Diagnostic.fixHelp fix).toList := by
  intro fix hfix
  cases problem with
  | malformed fault => exact Fault.visible_fix? (Option.mem_toList.mp hfix)
  | missing reason => cases hfix
  | mismatch specifier position expected actual reason =>
      cases reason with
      | array => cases hfix
      | incompatible => exact Specifier.visible_fix? h (Option.mem_toList.mp hfix)
      | invalid => exact Specifier.visible_fix? h (Option.mem_toList.mp hfix)
  | extra supplied referenced => cases hfix

theorem isVisible_diagnose {problem : Problem} (h : problem.KeepsVisible) (span : Span) :
    (problem.diagnose span).IsVisible where
  message := visible_message h
  labels := List.forall_mem_singleton.mpr problem.visible_label
  notes := visible_notes h
  suggestions := problem.visible_suggestions
  fixes := visible_fixes h span

end Problem

/-- Whatever the format text is, a failure keeps nothing of it that cannot be seen. -/
theorem keepsVisible_of_check {format : String} {arguments : List Signature}
    {problem : Located Problem} (harguments : ∀ argument ∈ arguments, Visible argument.text.toList)
    (h : check format arguments = .error problem) : problem.value.KeepsVisible := by
  unfold check at h
  split at h
  · rename_i fault hparse
    cases h
    exact visible_of_parse hparse
  · split at h
    · rename_i found hfollow
      cases h
      obtain ⟨specifier, -, hcaused⟩ := Tracker.exists_causedBy_of_follow hfollow
      cases hcaused with
      | missing reason => trivial
      | mismatch position expected reason hsupplied => exact harguments _ hsupplied
    · split at h
      · cases h
        trivial
      · cases h

/-- A report on a call that fails holds no control characters but the line feeds at the ends of
its lines, and it has as many lines as the diagnostic has parts, and six more. -/
theorem report_of_check_is_visible (format : String) (arguments : List Signature)
    (problem : Located Problem) (harguments : ∀ argument ∈ arguments, Visible argument.text.toList)
    (h : check format arguments = .error problem) :
    let diagnostic := problem.value.diagnose problem.span
    let report := String.join ((Writer.onTerminal false).run
      [.source format, .emit diagnostic, .summary 1])
    (∀ c ∈ report.toList, isControl c = true → c = '\n') ∧
      (lines report.toList).length = diagnostic.labels.length + diagnostic.notes.length +
        diagnostic.suggestions.length + diagnostic.fixes.length + 6 := by
  intro diagnostic report
  have hvisible := Problem.isVisible_diagnose (keepsVisible_of_check harguments h) problem.span
  have hpieces := Diagnostic.visibleLines_pieces hvisible (by simp [Problem.diagnose]) format
  have hsummary : VisibleLines 1 ("error: 1 call site failed".toList ++ ['\n']) :=
    .line (visible_literal rfl)
  have hreport : report.toList = (diagnostic.pieces (some format)).flatMap Piece.chars ++
      ("error: 1 call site failed".toList ++ ['\n']) := by
    simp [report, Writer.onTerminal, Writer.run, Writer.step, Writer.setSource, Writer.emit,
      Writer.summary, Piece.toList_renderAll, summaryPieces, Piece.chars]
  have hlines := hpieces.append hsummary
  rw [← hreport] at hlines
  exact ⟨fun c hc => hlines.eq_newline_of_isControl hc, hlines.length_lines⟩

/-- A line feed and a colour stand where a conversion is looked for and behind it; the report
has its seven lines all the same. -/
theorem report_of_check_is_visible_colored :
    let problem : Located Problem := ⟨.malformed (.unknownConversion (some '\n')), 1, 3⟩
    let report := String.join ((Writer.onTerminal false).run
      [.source "a%\n\x1b[32mok", .emit (problem.value.diagnose problem.span), .summary 1])
    check "a%\n\x1b[32mok" [⟨"I"⟩] = .error problem ∧
      (∀ c ∈ report.toList, isControl c = true → c = '\n') ∧
      (lines report.toList).length = 7 := by
  intro problem report
  have hcheck : check "a%\n\x1b[32mok" [⟨"I"⟩] = .error problem := by decide +kernel
  have hargument : Visible (Signature.mk "I").text.toList := visible_literal rfl
  exact ⟨hcheck, report_of_check_is_visible _ _ problem (by simpa using hargument) hcheck⟩

end FormatCheck
