import FormatCheck.Proofs.Report.Grammar
import Mathlib.Data.List.Forall2

/-! # Values as they are written

What is written for a value, on one line or over several, is read as the value again. -/

namespace FormatCheck.Json

mutual

/-- The value as a document. -/
def document : Json → Document
  | text value => .text value
  | number value => .number (Decimal.digits value)
  | list items => .list (documents items)
  | record fields => .record (members fields)

def documents : List Json → List Document
  | [] => []
  | item :: items => document item :: documents items

def members : List (String × Json) → List (String × Document)
  | [] => []
  | (key, value) :: fields => (key, document value) :: members fields

end

/-- A text that is read as a phrase, whatever follows it. -/
def Spells (cs : List Char) (phrase : Phrase) : Prop :=
  ∀ rest, Reads (cs ++ rest) phrase rest

/-! ## Texts -/

theorem hexWord_of_isControl {n : Nat} (h : n < 0xA0) :
    hexWord n = ['0', '0', (n / 16).digitChar, (n % 16).digitChar] ∧
      hexWord? '0' '0' (n / 16).digitChar (n % 16).digitChar = some n := by
  have hall : ∀ n < 0xA0,
      hexWord n = ['0', '0', (n / 16).digitChar, (n % 16).digitChar] ∧
        hexWord? '0' '0' (n / 16).digitChar (n % 16).digitChar = some n := by
    decide +kernel
  exact hall n h

/-- Every character is escaped in a way that stands for it alone. -/
theorem readsChar_escapeChar (c : Char) (rest : List Char) :
    ReadsChar (escapeChar c ++ rest) c rest := by
  unfold escapeChar
  split
  · exact .short rfl
  · exact .short rfl
  · exact .short rfl
  · exact .short rfl
  · exact .short rfl
  · rename_i hquote hbackslash _ _ _
    by_cases hcontrol : Text.isControl c = true
    · have hlt : c.toNat < 0xA0 := by
        simp only [Text.isControl, Bool.or_eq_true, Bool.and_eq_true, decide_eq_true_eq] at hcontrol
        omega
      obtain ⟨hword, hvalue⟩ := hexWord_of_isControl hlt
      rw [if_pos hcontrol, hword]
      exact .word hvalue
    · rw [if_neg hcontrol]
      refine .plain ?_ hquote hbackslash
      simp only [Text.isControl, Bool.or_eq_true, Bool.and_eq_true, decide_eq_true_eq] at hcontrol
      omega

/-- An escaped text is read up to the quote behind it. -/
theorem readsText_escape (cs rest : List Char) : ReadsText (escape cs ++ '"' :: rest) cs rest := by
  induction cs with
  | nil => exact .close
  | cons c cs ih =>
      rw [escape, List.flatMap_cons, List.append_assoc]
      exact .char (readsChar_escapeChar c _) ih

theorem spells_quoted (text : String) : Spells (quoted text) (.value (.text text)) := by
  intro rest
  have h := Reads.text (readsText_escape text.toList rest)
  simpa [quoted] using h

/-! ## Numbers -/

theorem isNumeral_digits (n : Nat) : IsNumeral (Decimal.digits n) := by
  have hdigits : IsDigits (Decimal.digits n) :=
    ⟨Decimal.digits_ne_nil n, fun _ hc => Decimal.isDigit_of_mem_digits hc⟩
  have hzero : (Decimal.digits n).head? = some '0' → Decimal.digits n = ['0'] := by
    intro hhead
    by_cases hn : n = 0
    · subst hn
      rfl
    · exact absurd hhead (Decimal.head?_digits hn)
  simpa using @IsNumeral.mk [] _ [] [] (by simp) hdigits hzero (.inl rfl) (.inl rfl)

theorem spells_digits (n : Nat) : Spells (Decimal.digits n) (.value (.number (Decimal.digits n))) :=
  fun _ => .number ⟨isNumeral_digits n, rfl⟩

/-! ## Gaps -/

def IsGapText (cs : List Char) : Prop :=
  ∀ c ∈ cs, isGap c = true

theorem isGapText_replicate (n : Nat) : IsGapText (List.replicate n ' ') := by
  intro c hc
  rw [List.eq_of_mem_replicate hc]
  rfl

theorem IsGapText.append {cs ds : List Char} (hcs : IsGapText cs) (hds : IsGapText ds) :
    IsGapText (cs ++ ds) :=
  List.forall_mem_append.mpr ⟨hcs, hds⟩

theorem isGapText_nil : IsGapText [] := by
  simp [IsGapText]

theorem isGapText_newline : IsGapText ['\n'] := by
  simp [IsGapText, isGap]

theorem isGapText_space : IsGapText [' '] := by
  simp [IsGapText, isGap]

/-! ## Sequences -/

/-- Texts with a comma and gaps between them, and gaps around them. -/
inductive Layout : List (List Char) → List Char → Prop where
  | nothing {gap : List Char} (hgap : IsGapText gap) : Layout [] gap
  | last {before text after : List Char} (hbefore : IsGapText before) (hafter : IsGapText after) :
      Layout [text] (before ++ (text ++ after))
  | more {before text after next body : List Char} {texts : List (List Char)}
      (hbefore : IsGapText before) (hafter : IsGapText after)
      (hbody : Layout (next :: texts) body) :
      Layout (text :: next :: texts) (before ++ (text ++ (after ++ ',' :: body)))

theorem Layout.reads {texts : List (List Char)} {body : List Char} (h : Layout texts body)
    (bracket : Bracket) {elements : List bracket.Element}
    (hspells : List.Forall₂ (fun text element => Spells text (.element bracket element))
      texts elements) (rest : List Char) :
    Reads (body ++ bracket.close :: rest) (.elements bracket elements) rest := by
  induction h generalizing elements with
  | nothing hgap =>
      cases hspells with
      | nil => exact .nothing (gap_append hgap _)
  | last hbefore hafter =>
      cases hspells with
      | cons htext hnone =>
          cases hnone with
          | nil =>
              simp only [List.append_assoc]
              exact .last (gap_append hbefore _) (htext _) (gap_append hafter _)
  | more hbefore hafter _ ih =>
      cases hspells with
      | cons htext hmore =>
          have hbody := ih hmore
          cases hmore with
          | cons hnext hmore =>
              simp only [List.append_assoc, List.cons_append]
              exact .more (gap_append hbefore _) (htext _) (gap_append hafter _) hbody

theorem spells_list {texts : List (List Char)} {body : List Char} {found : List Document}
    (h : Layout texts body)
    (hspells : List.Forall₂ (fun text d => Spells text (.value d)) texts found) :
    Spells ('[' :: (body ++ [']'])) (.value (.list found)) := by
  intro rest
  have hitems : Reads (body ++ ']' :: rest) (.elements .square found) rest :=
    h.reads .square hspells rest
  simpa using Reads.list hitems

theorem spells_record {texts : List (List Char)} {body : List Char}
    {found : List (String × Document)} (h : Layout texts body)
    (hspells : List.Forall₂ (fun text m => Spells text (.element .curly m)) texts found) :
    Spells ('\x7b' :: (body ++ ['\x7d'])) (.value (.record found)) := by
  intro rest
  have hmembers : Reads (body ++ '\x7d' :: rest) (.elements .curly found) rest :=
    h.reads .curly hspells rest
  simpa using Reads.record hmembers

theorem spells_field (key : String) {value : List Char} {found : Document}
    (h : Spells value (.value found)) : Spells (field key value) (.member key found) := by
  intro rest
  have hkey := readsText_escape key.toList (':' :: ' ' :: (value ++ rest))
  have hgap : Gap (' ' :: (value ++ rest)) (value ++ rest) := gap_append isGapText_space _
  have hmember := Reads.member hkey (gap_nil _) hgap (h rest)
  simpa [field, quoted] using hmember

/-! ## Layouts -/

/-- Texts on one line. -/
theorem layout_intercalate (texts : List (List Char)) {before after : List Char}
    (hbefore : IsGapText before) (hafter : IsGapText after) :
    Layout texts (before ++ ([',', ' '].intercalate texts ++ after)) := by
  induction texts generalizing before with
  | nil => exact .nothing (hbefore.append hafter)
  | cons text texts ih =>
      cases texts with
      | nil =>
          rw [List.intercalate_singleton]
          exact .last hbefore hafter
      | cons next texts =>
          have hmore := @Layout.more _ text _ _ _ _ hbefore isGapText_nil (ih isGapText_space)
          simpa [List.intercalate_cons_cons] using hmore

/-- Texts on lines of their own. -/
theorem layout_itemLines (indent : Nat) (texts : List (List Char)) {before after : List Char}
    (hbefore : IsGapText before) (hafter : IsGapText after) :
    Layout texts (before ++ (itemLines indent texts ++ after)) := by
  fun_induction itemLines indent texts generalizing before with
  | case1 => exact .nothing (hbefore.append hafter)
  | case2 text =>
      have hindent := hbefore.append (isGapText_replicate indent)
      have hlast := @Layout.last _ text _ hindent (isGapText_newline.append hafter)
      simpa using hlast
  | case3 text next texts ih =>
      have hindent := hbefore.append (isGapText_replicate indent)
      have hmore := @Layout.more _ text _ _ _ _ hindent isGapText_nil (ih isGapText_newline)
      simpa using hmore

/-! ## Values -/

mutual

theorem spells_inline : ∀ json : Json, Spells json.inline (.value json.document)
  | text value => spells_quoted value
  | number value => spells_digits value
  | list items => by
      have hlayout := layout_intercalate (inlineItems items) isGapText_nil isGapText_nil
      simpa [inline, row, document] using spells_list hlayout (spells_inlineItems items)
  | record fields => by
      have hlayout := layout_intercalate (inlineFields fields) isGapText_space isGapText_space
      simpa [inline, row, document] using spells_record hlayout (spells_inlineFields fields)

theorem spells_inlineItems : ∀ items : List Json,
    List.Forall₂ (fun text d => Spells text (.value d)) (inlineItems items) (documents items)
  | [] => .nil
  | item :: items => .cons (spells_inline item) (spells_inlineItems items)

theorem spells_inlineFields : ∀ fields : List (String × Json),
    List.Forall₂ (fun text m => Spells text (.element .curly m)) (inlineFields fields)
      (members fields)
  | [] => .nil
  | (key, value) :: fields =>
      .cons (spells_field key (spells_inline value)) (spells_inlineFields fields)

end

theorem spells_block_list {texts : List (List Char)} {found : List Document} (indent : Nat)
    (h : List.Forall₂ (fun text d => Spells text (.value d)) texts found) :
    Spells (block '[' indent texts ']') (.value (.list found)) := by
  have hlayout := layout_itemLines (indent + 2) texts isGapText_newline (isGapText_replicate indent)
  simpa [block] using spells_list hlayout h

theorem spells_block_record {texts : List (List Char)} {found : List (String × Document)}
    (indent : Nat)
    (h : List.Forall₂ (fun text m => Spells text (.element .curly m)) texts found) :
    Spells (block '\x7b' indent texts '\x7d') (.value (.record found)) := by
  have hlayout := layout_itemLines (indent + 2) texts isGapText_newline (isGapText_replicate indent)
  simpa [block] using spells_record hlayout h

mutual

theorem spells_render (levels indent : Nat) :
    ∀ json : Json, Spells (json.render levels indent) (.value json.document)
  | text value => spells_quoted value
  | number value => spells_digits value
  | list items => spells_block_list indent (spells_renderItems levels (indent + 2) items)
  | record fields => by
      cases levels with
      | zero => exact spells_inline (record fields)
      | succ levels =>
          exact spells_block_record indent (spells_renderFields levels (indent + 2) fields)

theorem spells_renderItems (levels indent : Nat) : ∀ items : List Json,
    List.Forall₂ (fun text d => Spells text (.value d)) (renderItems levels indent items)
      (documents items)
  | [] => .nil
  | item :: items =>
      .cons (spells_render levels indent item) (spells_renderItems levels indent items)

theorem spells_renderFields (levels indent : Nat) : ∀ fields : List (String × Json),
    List.Forall₂ (fun text m => Spells text (.element .curly m))
      (renderFields levels indent fields) (members fields)
  | [] => .nil
  | (key, value) :: fields =>
      .cons (spells_field key (spells_render levels indent value))
        (spells_renderFields levels indent fields)

end

end FormatCheck.Json
