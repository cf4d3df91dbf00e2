import FormatCheck.Proofs.Report.PlainLines
import FormatCheck.Proofs.Text.Codes

/-! # Colours

Colours add codes to a report and nothing else. Without the codes it is the report that is
written without colours, and every style is switched off again before another one is switched
on. -/

namespace FormatCheck

open Text

/-! ## Coloured pieces -/

/-- The parameters of the code that switches a style on. -/
def Style.parameters : Style → List Char
  | error => ['1', ';', '3', '1']
  | help => ['1', ';', '3', '2']
  | bold => ['1']

theorem Style.toList_on (style : Style) :
    style.on.toList = '\x1b' :: '[' :: (style.parameters ++ ['m']) := by
  cases style <;> decide

namespace Piece

/-- What a terminal finds in a coloured piece. -/
def tokens : Piece → List Token
  | plain text => text.toList.map .char
  | styled style text => .code style.parameters :: (text.toList.map .char ++ [.code ['0']])

theorem tokens_render {piece : Piece} (h : '\x1b' ∉ piece.chars) (rest : List Char) :
    Text.tokens ((piece.render true).toList ++ rest) = piece.tokens ++ Text.tokens rest := by
  cases piece with
  | plain text => exact tokens_append h rest
  | styled style text =>
      have hstyle : style.parameters.all isParameter := by cases style <;> decide
      have hoff : Style.off.toList = '\x1b' :: '[' :: (['0'] ++ ['m']) := by decide
      have hrender : ((styled style text).render true).toList ++ rest =
          '\x1b' :: '[' :: (style.parameters ++ 'm' :: (text.toList ++
            '\x1b' :: '[' :: (['0'] ++ 'm' :: rest))) := by
        simp [render, style.toList_on, hoff]
      have htext : '\x1b' ∉ text.toList := h
      rw [hrender, tokens_code hstyle, tokens_append htext, tokens_code (by decide)]
      simp [tokens]

theorem tokens_renderAll {pieces : List Piece} (h : ∀ piece ∈ pieces, '\x1b' ∉ piece.chars) :
    Text.tokens (renderAll true pieces).toList = pieces.flatMap tokens := by
  induction pieces with
  | nil => exact tokens_nil
  | cons piece pieces ih =>
      have hrender : (renderAll true (piece :: pieces)).toList =
          (piece.render true).toList ++ (renderAll true pieces).toList := by
        simp [renderAll]
      rw [hrender, tokens_render (h piece List.mem_cons_self),
        ih fun piece hpiece => h piece (List.mem_cons_of_mem _ hpiece), List.flatMap_cons]

theorem filterMap_tokens (piece : Piece) : piece.tokens.filterMap Token.char? = piece.chars := by
  have hchars : ∀ cs : List Char, (cs.map Token.char).filterMap Token.char? = cs := by
    intro cs
    simp [List.filterMap_map, Function.comp_def, Token.char?]
  cases piece with
  | plain text => exact hchars _
  | styled style text => simp [tokens, chars, hchars, Token.char?, List.filterMap_cons]

theorem withoutCodes_renderAll {pieces : List Piece}
    (h : ∀ piece ∈ pieces, '\x1b' ∉ piece.chars) :
    withoutCodes (renderAll true pieces).toList = (renderAll false pieces).toList := by
  rw [withoutCodes, tokens_renderAll h, toList_renderAll, List.filterMap_flatMap]
  exact List.flatMap_congr fun piece _ => piece.filterMap_tokens

theorem switchesOff_renderAll {pieces : List Piece}
    (h : ∀ piece ∈ pieces, '\x1b' ∉ piece.chars) :
    SwitchesOff (Text.tokens (renderAll true pieces).toList) := by
  rw [tokens_renderAll h]
  apply SwitchesOff.flatMap
  intro piece
  cases piece with
  | plain text => exact .map_char _
  | styled style text => exact .styled _ _ (.inr rfl)

end Piece

/-! ## Diagnostics -/

theorem escape_notMem_of_visible {cs : List Char} (h : Visible cs) : '\x1b' ∉ cs := by
  intro hmem
  cases h _ hmem

namespace Diagnostic

/-- All texts that a diagnostic brings with it. -/
def texts (diagnostic : Diagnostic) : List String :=
  diagnostic.message :: (diagnostic.labels.map Label.message ++ diagnostic.notes ++
    diagnostic.suggestions ++ diagnostic.fixes.flatMap fun fix =>
      fix.message :: fix.substitutions.map Substitution.snippet)

theorem escape_notMem_header {diagnostic : Diagnostic}
    (h : '\x1b' ∉ diagnostic.message.toList) :
    ∀ piece ∈ diagnostic.header, '\x1b' ∉ piece.chars := by
  have hcode : '\x1b' ∉ diagnostic.code.text.toList := by
    cases diagnostic.code <;> decide
  simp [header, Piece.chars, h, hcode]

theorem escape_notMem_labelLine {label : Label} (h : '\x1b' ∉ label.message.toList) :
    ∀ piece ∈ labelLine label, '\x1b' ∉ piece.chars := by
  have hdecimal : ∀ n, '\x1b' ∉ (Decimal.text n).toList :=
    fun n => escape_notMem_of_visible (visible_decimal n)
  simp [labelLine, Span.text, Piece.chars, h, hdecimal]

theorem escape_notMem_remark (style : Style) {word remark : String}
    (hword : '\x1b' ∉ word.toList) (hremark : '\x1b' ∉ remark.toList) :
    ∀ piece ∈ [.plain "  = ", .styled style word, .plain (": " ++ remark ++ "\n")],
      '\x1b' ∉ Piece.chars piece := by
  simp [Piece.chars, hword, hremark]

/-- The format text is shown, with escapes for its control characters. -/
theorem escape_notMem_snippetLines (source : String) (span : Span) :
    ∀ piece ∈ snippetLines source span, '\x1b' ∉ piece.chars := by
  have hline : '\x1b' ∉ shown source.toList := escape_notMem_of_visible (visible_shown _)
  simp [snippetLines, Snippet.ofSpan, Piece.chars, hline]

theorem escape_notMem_fixHelp {fix : Fix} (hmessage : '\x1b' ∉ fix.message.toList)
    (hsnippets : ∀ substitution ∈ fix.substitutions, '\x1b' ∉ substitution.snippet.toList) :
    '\x1b' ∉ (fixHelp fix).toList := by
  unfold fixHelp
  split
  · rename_i first rest hfirst
    have hsnippet := hsnippets first (by simp [hfirst])
    split
    · exact hmessage
    · simp [hmessage, hsnippet]
  · exact hmessage

theorem escape_notMem_pieces {diagnostic : Diagnostic}
    (h : ∀ text ∈ diagnostic.texts, '\x1b' ∉ text.toList) (source? : Option String) :
    ∀ piece ∈ diagnostic.pieces source?, '\x1b' ∉ piece.chars := by
  simp only [texts, List.forall_mem_cons, List.forall_mem_append, List.forall_mem_map,
    List.forall_mem_flatMap] at h
  obtain ⟨hmessage, ⟨⟨hlabels, hnotes⟩, hsuggestions⟩, hfixes⟩ := h
  simp only [pieces, List.forall_mem_append, List.forall_mem_flatMap, List.forall_mem_map]
  refine ⟨⟨⟨⟨⟨escape_notMem_header hmessage, ?_⟩, ?_⟩, ?_⟩, ?_, ?_⟩, ?_⟩
  · intro label hlabel
    exact escape_notMem_labelLine (hlabels label hlabel)
  · split
    · exact escape_notMem_snippetLines _ _
    · exact List.forall_mem_nil _
  · intro note hnote
    exact escape_notMem_remark .bold (by decide) (hnotes note hnote)
  · intro suggestion hsuggestion
    exact escape_notMem_remark .help (by decide) (hsuggestions suggestion hsuggestion)
  · intro fix hfix
    obtain ⟨hfixMessage, hsnippets⟩ := hfixes fix hfix
    exact escape_notMem_remark .help (by decide) (escape_notMem_fixHelp hfixMessage hsnippets)
  · simp [Piece.chars]

end Diagnostic

theorem escape_notMem_summaryPieces (failed : Nat) :
    ∀ piece ∈ summaryPieces failed, '\x1b' ∉ piece.chars := by
  have hdecimal : '\x1b' ∉ (Decimal.text failed).toList :=
    escape_notMem_of_visible (visible_decimal failed)
  unfold summaryPieces
  split
  · simp
  · simp [Piece.chars]
  · simp [Piece.chars, hdecimal]

/-! ## Runs -/

namespace Action

/-- The diagnostics that a writer is told to emit. -/
def diagnostics : Action → List Diagnostic
  | .emit diagnostic => [diagnostic]
  | .emitAll diagnostics => diagnostics
  | _ => []

/-- All texts of the diagnostics that a writer is told to emit. -/
def texts (action : Action) : List String :=
  action.diagnostics.flatMap Diagnostic.texts

/-- The format text that is known after an action. -/
def sourceAfter (source? : Option String) : Action → Option String
  | .source text => some text
  | _ => source?

/-- What an action writes on a terminal, whether there are colours or not. -/
def pieces (source? : Option String) : Action → List Piece
  | .summary failed => summaryPieces failed
  | action => action.diagnostics.flatMap (Diagnostic.pieces source?)

/-- What actions write on a terminal, one after the other. -/
def allPieces (source? : Option String) : List Action → List Piece
  | [] => []
  | action :: actions =>
      action.pieces source? ++ allPieces (action.sourceAfter source?) actions

end Action

theorem Piece.renderAll_append (colors : Bool) (first second : List Piece) :
    renderAll colors (first ++ second) = renderAll colors first ++ renderAll colors second := by
  simp [renderAll]

namespace Writer

variable (colors : Bool) (source? : Option String)

theorem emitAll_terminal (diagnostics : List Diagnostic) :
    (terminal colors source?).emitAll diagnostics =
      (terminal colors source?,
        Piece.renderAll colors (diagnostics.flatMap (Diagnostic.pieces source?))) := by
  induction diagnostics with
  | nil => rfl
  | cons diagnostic diagnostics ih =>
      simp [emitAll, emit, ih, Piece.renderAll_append]

theorem step_terminal (action : Action) :
    (terminal colors source?).step action =
      (terminal colors (action.sourceAfter source?),
        Piece.renderAll colors (action.pieces source?)) := by
  cases action with
  | emitAll diagnostics => exact emitAll_terminal colors source? diagnostics
  | emit diagnostic => simp [step, emit, Action.pieces, Action.diagnostics, Action.sourceAfter]
  | start | finish | source | summary | flush => rfl

/-- The writer only puts colours on what it would write without them. -/
theorem run_terminal (actions : List Action) :
    String.join ((terminal colors source?).run actions) =
      Piece.renderAll colors (Action.allPieces source? actions) := by
  induction actions generalizing source? with
  | nil => rfl
  | cons action actions ih =>
      simp [run, step_terminal, Action.allPieces, Piece.renderAll_append, ih]

end Writer

namespace Action

theorem escape_notMem_pieces {action : Action} (h : ∀ text ∈ action.texts, '\x1b' ∉ text.toList)
    (source? : Option String) : ∀ piece ∈ action.pieces source?, '\x1b' ∉ piece.chars := by
  rw [texts, List.forall_mem_flatMap] at h
  unfold pieces
  split
  · exact escape_notMem_summaryPieces _
  · rw [List.forall_mem_flatMap]
    intro diagnostic hdiagnostic
    exact Diagnostic.escape_notMem_pieces (h diagnostic hdiagnostic) source?

theorem escape_notMem_allPieces {actions : List Action}
    (h : ∀ action ∈ actions, ∀ text ∈ action.texts, '\x1b' ∉ text.toList)
    (source? : Option String) :
    ∀ piece ∈ allPieces source? actions, '\x1b' ∉ piece.chars := by
  induction actions generalizing source? with
  | nil => exact List.forall_mem_nil _
  | cons action actions ih =>
      obtain ⟨haction, hactions⟩ := List.forall_mem_cons.mp h
      rw [allPieces, List.forall_mem_append]
      exact ⟨escape_notMem_pieces haction source?, ih hactions _⟩

theorem pieces_eq_nil_or (action : Action) (source? : Option String) :
    action.pieces source? = [] ∨
      ∃ rest, action.pieces source? = .styled .error "error" :: rest := by
  unfold pieces
  split
  · rename_i failed
    match failed with
    | 0 => exact .inl rfl
    | 1 => exact .inr ⟨_, rfl⟩
    | _ + 2 => exact .inr ⟨_, rfl⟩
  · cases action.diagnostics with
    | nil => exact .inl rfl
    | cons diagnostic diagnostics => exact .inr ⟨_, rfl⟩

/-- All that is ever written on a terminal starts with a word in a colour. -/
theorem allPieces_eq_nil_or (actions : List Action) (source? : Option String) :
    allPieces source? actions = [] ∨
      ∃ rest, allPieces source? actions = .styled .error "error" :: rest := by
  induction actions generalizing source? with
  | nil => exact .inl rfl
  | cons action actions ih =>
      rw [allPieces]
      rcases action.pieces_eq_nil_or source? with hnil | ⟨rest, hrest⟩
      · rw [hnil, List.nil_append]
        exact ih _
      · exact .inr ⟨_, by rw [hrest, List.cons_append]⟩

end Action

/-- Whatever a writer on a terminal is told to do, with colours it writes what it writes without
them, and codes: every style is switched off before another one is switched on and before the
end of the text. The format texts may hold anything, since they are shown with escapes. -/
theorem colors_only_add_codes (actions : List Action)
    (h : ∀ action ∈ actions, ∀ text ∈ action.texts, '\x1b' ∉ text.toList) :
    let colored := String.join ((Writer.onTerminal true).run actions)
    let plain := String.join ((Writer.onTerminal false).run actions)
    withoutCodes colored.toList = plain.toList ∧ SwitchesOff (tokens colored.toList) ∧
      '\x1b' ∉ plain.toList ∧ (plain ≠ "" → colored ≠ plain) := by
  intro colored plain
  have hpieces := Action.escape_notMem_allPieces h none
  have hcolored : colored = Piece.renderAll true (Action.allPieces none actions) :=
    Writer.run_terminal true none actions
  have hplain : plain = Piece.renderAll false (Action.allPieces none actions) :=
    Writer.run_terminal false none actions
  have hescape : '\x1b' ∉ plain.toList := by
    rw [hplain, Piece.toList_renderAll]
    intro hmem
    obtain ⟨piece, hpiece, hescape⟩ := List.mem_flatMap.mp hmem
    exact hpieces piece hpiece hescape
  refine ⟨?_, ?_, hescape, ?_⟩
  · rw [hcolored, hplain]
    exact Piece.withoutCodes_renderAll hpieces
  · rw [hcolored]
    exact Piece.switchesOff_renderAll hpieces
  · intro hsome heq
    rcases Action.allPieces_eq_nil_or actions none with hnil | ⟨rest, hrest⟩
    · rw [hnil] at hplain
      exact hsome hplain
    · have hcode : '\x1b' ∈ colored.toList := by
        rw [hcolored, hrest]
        simp [Piece.renderAll, Piece.render, Style.on]
      exact hescape (heq ▸ hcode)

/-- The format text holds a code that switches a colour on; it is shown, and not obeyed. -/
theorem colors_only_add_codes_shown :
    let diagnostic : Diagnostic :=
      { code := .incompatibleType
        message := "`%d` cannot format int[]"
        labels := [⟨⟨5, 7⟩, "expects a number"⟩]
        notes := ["argument 1"]
        fixes := [⟨"use", .tentative, [⟨⟨5, 7⟩, "%s"⟩]⟩] }
    let actions : List Action :=
      [.source "\x1b[31m%d", .emit diagnostic, .emitAll [diagnostic, diagnostic], .summary 3]
    let colored := String.join ((Writer.onTerminal true).run actions)
    let plain := String.join ((Writer.onTerminal false).run actions)
    (∀ action ∈ actions, ∀ text ∈ action.texts, '\x1b' ∉ text.toList) ∧ plain ≠ "" ∧
      withoutCodes colored.toList = plain.toList ∧ SwitchesOff (tokens colored.toList) ∧
      '\x1b' ∉ plain.toList ∧ colored ≠ plain := by
  intro diagnostic actions colored plain
  have htexts : ∀ action ∈ actions, ∀ text ∈ action.texts, '\x1b' ∉ text.toList := by
    decide +kernel
  have hplain : plain ≠ "" := by decide +kernel
  obtain ⟨herased, hoff, hescape, hcolors⟩ := colors_only_add_codes actions htexts
  exact ⟨htexts, hplain, herased, hoff, hescape, hcolors hplain⟩

end FormatCheck
