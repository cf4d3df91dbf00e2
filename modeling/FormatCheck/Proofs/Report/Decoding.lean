import FormatCheck.Proofs.Report.Rendering
import FormatCheck.Report.Writer

/-! # Reports as documents

A report in JSON is one document, and the document says all that was reported and
nothing else. -/

namespace FormatCheck

namespace Json.Document

/-! ## What a document says -/

def text? : Document → Option String
  | .text value => some value
  | _ => none

/-- A number without a sign, a point or an exponent. -/
def natural? : Document → Option Nat
  | .number numeral => if numeral.all Char.isDigit then some (Decimal.value numeral) else none
  | _ => none

def list? {α : Type} (item? : Document → Option α) : Document → Option (List α)
  | .list items => items.mapM item?
  | _ => none

/-- The values of a record that has these keys, in this order, and no others. -/
def values? (keys : List String) : Document → Option (List Document)
  | .record members => if members.map Prod.fst = keys then some (members.map Prod.snd) else none
  | _ => none

def code? (document : Document) : Option Code := do
  let text ← document.text?
  Code.all.find? (·.text = text)

def confidence? (document : Document) : Option Confidence := do
  let text ← document.text?
  [Confidence.certain, .tentative].find? (·.text = text)

def label? (document : Document) : Option Label := do
  let [start, stop, message] ← document.values? ["start", "end", "message"] | none
  return ⟨⟨← start.natural?, ← stop.natural?⟩, ← message.text?⟩

def substitution? (document : Document) : Option Substitution := do
  let [start, stop, snippet] ← document.values? ["start", "end", "snippet"] | none
  return ⟨⟨← start.natural?, ← stop.natural?⟩, ← snippet.text?⟩

def fix? (document : Document) : Option Fix := do
  let [message, applicability, substitutions] ←
    document.values? ["message", "applicability", "substitutions"] | none
  return ⟨← message.text?, ← applicability.confidence?, ← substitutions.list? substitution?⟩

/-- A diagnostic and the format text it refers to. -/
def diagnostic? (document : Document) : Option (String × Diagnostic) := do
  let [code, format, message, labels, notes, suggestions, fixes] ← document.values?
    ["code", "format", "message", "labels", "notes", "suggestions", "structured_suggestions"] | none
  return (← format.text?,
    ⟨← code.code?, ← message.text?, ← labels.list? label?, ← notes.list? text?,
      ← suggestions.list? text?, ← fixes.list? fix?⟩)

/-- The diagnostics of a report, each with the format text it refers to. -/
def diagnostics? (document : Document) : Option (List (String × Diagnostic)) :=
  document.list? diagnostic?

end Json.Document

namespace Json

@[simp] theorem documents_eq_map (items : List Json) : documents items = items.map document := by
  induction items with
  | nil => rfl
  | cons item items ih => simp [documents, ih]

theorem members_eq_map (fields : List (String × Json)) :
    members fields = fields.map fun (key, value) => (key, document value) := by
  induction fields with
  | nil => rfl
  | cons field fields ih => simp [members, ih]

@[simp] theorem values?_document (keys : List String) (fields : List (String × Json)) :
    (record fields).document.values? keys =
      if fields.map Prod.fst = keys then some (fields.map fun (_, value) => document value)
      else none := by
  simp [document, Document.values?, members_eq_map, Function.comp_def]

@[simp] theorem text?_document (value : String) : (text value).document.text? = some value := by
  simp [document, Document.text?]

@[simp] theorem natural?_document (value : Nat) :
    (number value).document.natural? = some value := by
  have hdigits : (Decimal.digits value).all Char.isDigit = true :=
    List.all_eq_true.mpr fun _ hc => Decimal.isDigit_of_mem_digits hc
  simp [document, Document.natural?, hdigits]

/-- A list says what its items say. -/
theorem list?_document {α : Type} {write : α → Json} {item? : Document → Option α}
    (h : ∀ a, item? (write a).document = some a) (as : List α) :
    (list (as.map write)).document.list? item? = some as := by
  simp only [document, documents_eq_map, Document.list?]
  induction as with
  | nil => rfl
  | cons a as ih => simp_all

@[simp] theorem code?_document (code : Code) : (text code.text).document.code? = some code := by
  cases code <;> rfl

@[simp] theorem confidence?_document (confidence : Confidence) :
    (text confidence.text).document.confidence? = some confidence := by
  cases confidence <;> rfl

theorem label?_document (label : Label) : label.json.document.label? = some label := by
  simp [Document.label?, Label.json]

theorem substitution?_document (substitution : Substitution) :
    substitution.json.document.substitution? = some substitution := by
  simp [Document.substitution?, Substitution.json]

theorem fix?_document (fix : Fix) : fix.json.document.fix? = some fix := by
  simp [Document.fix?, Fix.json, list?_document substitution?_document]

theorem diagnostic?_document (source : String) (diagnostic : Diagnostic) :
    (diagnostic.json (some source)).document.diagnostic? = some (source, diagnostic) := by
  simp [Document.diagnostic?, Diagnostic.json, list?_document label?_document,
    list?_document text?_document, list?_document fix?_document]

end Json

/-! ## The text of a report -/

namespace Action

/-- What a writer is told about a diagnostic and the format text it refers to. -/
def ofCall (call : String × Diagnostic) : List Action :=
  [.source call.1, .emit call.2]

/-- What a writer is told to list diagnostics. -/
def listing (calls : List (String × Diagnostic)) : List Action :=
  .start :: (calls.flatMap ofCall ++ [.finish])

end Action

namespace Listing

/-- The text of a list of diagnostics, each with the format text it refers to. -/
def report (calls : List (String × Diagnostic)) : String :=
  String.join (Writer.asJson.run (Action.listing calls))

/-- What is written for one diagnostic, without the comma in front of it. -/
def item (call : String × Diagnostic) : List Char :=
  (call.2.json (some call.1)).render 2 2

/-- Items that stand behind others, each with a comma in front of it. -/
def moreItems (calls : List (String × Diagnostic)) : List Char :=
  calls.flatMap fun call => [',', '\n', ' ', ' '] ++ item call

theorem moreItems_cons (call : String × Diagnostic) (calls : List (String × Diagnostic)) :
    moreItems (call :: calls) = [',', '\n', ' ', ' '] ++ item call ++ moreItems calls := rfl

/-- A writer that has written an item goes on with a comma, whatever it knows. -/
theorem run_more (source? : Option String) (calls : List (String × Diagnostic)) :
    (String.join ((Writer.json false source?).run
      (calls.flatMap Action.ofCall ++ [.finish]))).toList =
        moreItems calls ++ ['\n', ']', '\n'] := by
  induction calls generalizing source? with
  | nil => simp [Writer.run, Writer.step, closing, moreItems]
  | cons call calls ih =>
      simp_all [Action.ofCall, Writer.run, Writer.step, Writer.setSource, Writer.emit, entry,
        moreItems_cons, item]

theorem toList_report_cons (call : String × Diagnostic) (calls : List (String × Diagnostic)) :
    (report (call :: calls)).toList =
      ['[', '\n', ' ', ' '] ++ item call ++ moreItems calls ++ ['\n', ']', '\n'] := by
  have hmore := run_more (some call.1) calls
  simp_all [report, Action.listing, Action.ofCall, Writer.asJson, Writer.run, Writer.step,
    Writer.setSource, Writer.emit, entry, item, opening]

theorem layout_moreItems (text : List Char) (calls : List (String × Diagnostic))
    {before : List Char} (hbefore : Json.IsGapText before) :
    Json.Layout (text :: calls.map item) (before ++ (text ++ (moreItems calls ++ ['\n']))) := by
  induction calls generalizing text before with
  | nil => exact .last hbefore Json.isGapText_newline
  | cons call calls ih =>
      -- The line break and the indentation behind a comma are the gap before the next item.
      have hindent := Json.isGapText_newline.append (Json.isGapText_replicate 2)
      have hmore := @Json.Layout.more _ text _ _ _ _ hbefore Json.isGapText_nil
        (ih (item call) hindent)
      simpa [moreItems_cons] using hmore

/-- The document that a report stands for. -/
def documentOf (calls : List (String × Diagnostic)) : Json.Document :=
  (Json.list (calls.map fun call => call.2.json (some call.1))).document

/-- A report is a list with the items in order, and a line break behind it. -/
theorem exists_layout (calls : List (String × Diagnostic)) :
    ∃ body, Json.Layout (calls.map item) body ∧
      (report calls).toList = '[' :: (body ++ [']']) ++ ['\n'] := by
  cases calls with
  | nil =>
      have hgap := Json.isGapText_newline.append Json.isGapText_newline
      exact ⟨_, .nothing hgap, by decide⟩
  | cons call calls =>
      have hindent := Json.isGapText_newline.append (Json.isGapText_replicate 2)
      exact ⟨_, layout_moreItems (item call) calls hindent, by simp [toList_report_cons]⟩

theorem report_denotes (calls : List (String × Diagnostic)) :
    Json.Denotes (report calls).toList (documentOf calls) := by
  obtain ⟨body, hlayout, htext⟩ := exists_layout calls
  have hitems : List.Forall₂ (fun text d => Json.Spells text (.value d)) (calls.map item)
      (Json.documents (calls.map fun call => call.2.json (some call.1))) := by
    simp [List.forall₂_map_left_iff, List.forall₂_map_right_iff, List.forall₂_same, item,
      Json.spells_render]
  have hlist := Json.spells_list hlayout hitems
  rw [htext]
  exact ⟨_, ['\n'], Json.gap_nil _, hlist ['\n'], ['\n'], Json.isGapText_newline, rfl⟩

theorem diagnostics?_documentOf (calls : List (String × Diagnostic)) :
    (documentOf calls).diagnostics? = some calls :=
  Json.list?_document (fun call => Json.diagnostic?_document call.1 call.2) calls

end Listing

/-- A report stands for one document, and it says what was reported. Escaping is what a
reader of texts undoes: the text ends where its own closing quote is, whatever is in it. -/
theorem Listing.report_denotes_iff (calls : List (String × Diagnostic)) :
    (∃ document : Json.Document, document.diagnostics? = some calls ∧
      ∀ other, Json.Denotes (Listing.report calls).toList other ↔ other = document) ∧
    ∀ (text : String) (rest decoded left : List Char),
      Json.ReadsText (Json.escape text.toList ++ '"' :: rest) decoded left ↔
        decoded = text.toList ∧ left = rest := by
  constructor
  · refine ⟨documentOf calls, diagnostics?_documentOf calls, ?_⟩
    intro other
    constructor
    · intro hother
      exact hother.unique (report_denotes calls)
    · rintro rfl
      exact report_denotes calls
  · intro text rest decoded left
    have htext := Json.readsText_escape text.toList rest
    constructor
    · intro hread
      exact hread.unique htext
    · rintro ⟨rfl, rfl⟩
      exact htext

end FormatCheck
