import FormatCheck.Text.Decimal
import FormatCheck.Text.Escaped

/-! # Visible text

A text is visible when it holds no control characters. What is shown of any text is
visible, and it is that text with an escape in the place of every control character. -/

namespace FormatCheck.Text

/-- The text holds no control characters. -/
def Visible (cs : List Char) : Prop :=
  ∀ c ∈ cs, isControl c = false

instance (cs : List Char) : Decidable (Visible cs) :=
  decidable_of_iff (cs.any isControl = false) (by simp [Visible])

@[simp] theorem visible_nil : Visible [] := by
  simp [Visible]

@[simp] theorem visible_cons {c : Char} {cs : List Char} :
    Visible (c :: cs) ↔ isControl c = false ∧ Visible cs := by
  simp [Visible]

@[simp] theorem visible_append {as bs : List Char} :
    Visible (as ++ bs) ↔ Visible as ∧ Visible bs := by
  simp only [Visible, List.forall_mem_append]

theorem Visible.mono {as bs : List Char} (hbs : Visible bs) (h : ∀ c ∈ as, c ∈ bs) : Visible as :=
  fun c hc => hbs c (h c hc)

theorem Visible.append {s t : String} (hs : Visible s.toList) (ht : Visible t.toList) :
    Visible (s ++ t).toList := by
  rw [String.toList_append]
  exact visible_append.mpr ⟨hs, ht⟩

theorem Visible.between {front s back : String} (hfront : Visible front.toList)
    (hs : Visible s.toList) (hback : Visible back.toList) :
    Visible (front ++ s ++ back).toList :=
  (hfront.append hs).append hback

theorem visible_replicate {c : Char} (h : isControl c = false) (n : Nat) :
    Visible (List.replicate n c) := by
  intro d hd
  rwa [List.eq_of_mem_replicate hd]

theorem visible_flatMap {α : Type} {items : List α} {f : α → List Char}
    (h : ∀ item ∈ items, Visible (f item)) : Visible (items.flatMap f) := by
  intro c hc
  obtain ⟨item, hitem, hc⟩ := List.mem_flatMap.mp hc
  exact h item hitem c hc

theorem visible_join {parts : List String} (h : ∀ part ∈ parts, Visible part.toList) :
    Visible (String.join parts).toList := by
  rw [String.toList_join]
  exact visible_flatMap h

theorem visible_ofList {cs : List Char} (h : Visible cs) : Visible (String.ofList cs).toList := by
  rw [String.toList_ofList]
  exact h

/-- A text that is written out is looked at character by character. -/
theorem visible_literal {cs : List Char} (h : cs.any isControl = false) :
    Visible (String.ofList cs).toList :=
  visible_ofList (by simpa [Visible] using h)

/-- A text between two that are written out. -/
theorem Visible.framed {front back : List Char} {s : String} (hs : Visible s.toList)
    (hfront : front.any isControl = false) (hback : back.any isControl = false) :
    Visible (String.ofList front ++ s ++ String.ofList back).toList :=
  .between (visible_literal hfront) hs (visible_literal hback)

/-! ## Numerals -/

theorem isControl_of_isDigit {c : Char} (h : c.isDigit) : isControl c = false := by
  simp only [Char.isDigit, Bool.and_eq_true, decide_eq_true_eq, ge_iff_le,
    UInt32.le_iff_toNat_le] at h
  simp only [isControl, Bool.or_eq_false_iff, Bool.and_eq_false_iff, decide_eq_false_iff_not,
    Char.toNat]
  have h0 : '0'.val.toNat = 48 := rfl
  have h9 : '9'.val.toNat = 57 := rfl
  omega

theorem visible_digits (n : Nat) : Visible (Decimal.digits n) := by
  intro c hc
  exact isControl_of_isDigit (Decimal.isDigit_of_mem_digits hc)

theorem visible_decimal (n : Nat) : Visible (Decimal.text n).toList :=
  visible_ofList (visible_digits n)

theorem visible_hexDigits (n : Nat) : Visible (hexDigits n) := by
  have hdigit : ∀ d < 16, Visible [d.digitChar] := by decide
  induction n using Nat.strongRecOn with
  | ind n ih =>
      by_cases hn : n < 16
      · rw [hexDigits, Nat.toDigits_of_lt_base hn]
        exact hdigit n hn
      · rw [hexDigits, Nat.toDigits_of_base_le (by decide) (by omega)]
        exact visible_append.mpr
          ⟨ih (n / 16) (by omega), hdigit (n % 16) (Nat.mod_lt _ (by decide))⟩

/-! ## Escapes -/

/-- Whatever the character is, its escape can be seen. -/
theorem visible_escapeChar (c : Char) : Visible (escapeChar c) := by
  unfold escapeChar
  split
  case h_7 =>
    split
    case isTrue h =>
      simp only [Bool.and_eq_true, decide_eq_true_eq] at h
      simp only [visible_cons, visible_nil, and_true, isControl, Bool.or_eq_false_iff,
        Bool.and_eq_false_iff, decide_eq_false_iff_not]
      omega
    case isFalse h =>
      rw [visible_append, visible_append]
      exact ⟨⟨by decide, visible_hexDigits c.toNat⟩, by decide⟩
  all_goals decide

/-- How a character is shown: as it is, or, when it is a control character, by the letter
or else by the number that stands for it. -/
inductive ShownAs : Char → List Char → Prop where
  | itself {c : Char} (h : isControl c = false) : ShownAs c [c]
  | tab : ShownAs '\t' ['\\', 't']
  | newline : ShownAs '\n' ['\\', 'n']
  | carriageReturn : ShownAs '\r' ['\\', 'r']
  | number {c : Char} (h : isControl c = true) (hletter : c ≠ '\t' ∧ c ≠ '\n' ∧ c ≠ '\r') :
      ShownAs c (['\\', 'u', '\x7b'] ++ Nat.toDigits 16 c.toNat ++ ['\x7d'])

theorem escapeChar_of_isControl {c : Char} (h : isControl c = true)
    (hletter : c ≠ '\t' ∧ c ≠ '\n' ∧ c ≠ '\r') :
    escapeChar c = ['\\', 'u', '\x7b'] ++ Nat.toDigits 16 c.toNat ++ ['\x7d'] := by
  obtain ⟨htab, hnewline, hreturn⟩ := hletter
  unfold escapeChar
  split
  case h_7 =>
    have hrange : ¬ (0x20 ≤ c.toNat ∧ c.toNat ≤ 0x7E) := by
      simp only [isControl, Bool.or_eq_true, Bool.and_eq_true, decide_eq_true_eq] at h
      omega
    rw [if_neg (by simpa using hrange), hexDigits]
  all_goals contradiction

/-- There is one way to show a character. -/
theorem shownAs_iff {c : Char} {piece : List Char} : ShownAs c piece ↔ piece = showChar c := by
  constructor
  · intro h
    cases h with
    | itself h => simp [showChar, h]
    | tab => rfl
    | newline => rfl
    | carriageReturn => rfl
    | number h hletter => rw [showChar, if_pos h, escapeChar_of_isControl h hletter]
  · rintro rfl
    by_cases hcontrol : isControl c = true
    · by_cases hletter : c ≠ '\t' ∧ c ≠ '\n' ∧ c ≠ '\r'
      · rw [showChar, if_pos hcontrol, escapeChar_of_isControl hcontrol hletter]
        exact .number hcontrol hletter
      · have hnamed : c = '\t' ∨ c = '\n' ∨ c = '\r' := by grind
        rcases hnamed with rfl | rfl | rfl
        · exact .tab
        · exact .newline
        · exact .carriageReturn
    · rw [showChar, if_neg hcontrol]
      exact .itself (by simpa using hcontrol)

/-- A line shows a text when it shows the characters one after the other. -/
inductive Shows : List Char → List Char → Prop where
  | nil : Shows [] []
  | cons {c : Char} {cs piece line : List Char} (hc : ShownAs c piece) (hcs : Shows cs line) :
      Shows (c :: cs) (piece ++ line)

/-- There is one line that shows a text. -/
theorem shows_iff {cs line : List Char} : Shows cs line ↔ line = shown cs := by
  constructor
  · intro h
    induction h with
    | nil => rfl
    | cons hc _ ih =>
        rw [ih, shownAs_iff.mp hc]
        rfl
  · rintro rfl
    induction cs with
    | nil => exact .nil
    | cons c cs ih => exact .cons (shownAs_iff.mpr rfl) ih

theorem visible_shown (cs : List Char) : Visible (shown cs) := by
  apply visible_flatMap
  intro c _
  unfold showChar
  split
  case isTrue => exact visible_escapeChar c
  case isFalse h => simpa using h

end FormatCheck.Text
