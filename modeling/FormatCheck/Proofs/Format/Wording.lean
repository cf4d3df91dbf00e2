import FormatCheck.Proofs.Format.Progress
import FormatCheck.Proofs.Format.Raising
import FormatCheck.Proofs.Text.Visible

/-! # The wording of faults

What the message of a fault repeats of the format text is digits, a mark, or an escaped
character. So a message can be seen whatever the format text is. -/

namespace FormatCheck

open Text

/-! ## Specifiers in print -/

theorem Flag.isControl_toChar (flag : Flag) : isControl flag.toChar = false := by
  cases flag <;> decide

theorem Mark.isControl_of_ofChar? {c : Char} {mark : Mark} (h : ofChar? c = some mark) :
    isControl c = false := by
  by_cases hc : c = '<'
  · subst hc
    decide
  · rw [ofChar?, if_neg hc, Option.map_eq_some_iff] at h
    obtain ⟨flag, hflag, -⟩ := h
    rw [← Flag.ofChar?_eq_some_iff.mp hflag]
    exact flag.isControl_toChar

/-- The character of a conversion can be seen, also in upper case. -/
theorem Conversion.isControl_toChar (conversion : Conversion) :
    isControl conversion.toChar = false ∧ isControl conversion.toChar.toUpper = false := by
  cases conversion with
  | dateTime field =>
      have ht : isControl 't' = false ∧ isControl 't'.toUpper = false := by decide
      exact ht
  | _ => decide

theorem Conversion.visible_suffix (conversion : Conversion) : Visible conversion.suffix := by
  cases conversion with
  | dateTime field => cases field <;> decide
  | _ => decide

theorem Conversion.visible_text (conversion : Conversion) : Visible conversion.text.toList := by
  rw [text, String.toList_ofList, chars, visible_cons]
  exact ⟨conversion.isControl_toChar.1, conversion.visible_suffix⟩

namespace Specifier

theorem visible_conversionChars (specifier : Specifier) : Visible specifier.conversionChars := by
  obtain ⟨hlower, hupper⟩ := specifier.conversion.isControl_toChar
  rw [conversionChars, visible_cons]
  refine ⟨?_, specifier.conversion.visible_suffix⟩
  split
  · exact hupper
  · exact hlower

/-- Every specifier is printed without control characters. -/
theorem visible_text (specifier : Specifier) : Visible specifier.text.toList := by
  have hindex : Visible specifier.index.chars := by
    cases specifier.index with
    | explicit position => exact visible_append.mpr ⟨visible_digits _, by decide⟩
    | relative => decide
    | implicit => decide
  have hflags : Visible specifier.flags.chars := by
    intro c hc
    obtain ⟨flag, -, rfl⟩ := List.mem_map.mp hc
    exact flag.isControl_toChar
  have hwidth : Visible (widthChars specifier.width) := by
    cases specifier.width with
    | some width => exact visible_digits _
    | none => exact visible_nil
  have hprecision : Visible (precisionChars specifier.precision) := by
    cases specifier.precision with
    | some precision => exact visible_cons.mpr ⟨by decide, visible_digits _⟩
    | none => exact visible_nil
  rw [text, String.toList_ofList, chars]
  simp only [List.cons_append, visible_cons, visible_append]
  exact ⟨by decide, ⟨⟨⟨hindex, hflags⟩, hwidth⟩, hprecision⟩, specifier.visible_conversionChars⟩

end Specifier

/-! ## Faults -/

namespace Fault

/-- What a fault keeps of the format text as it stands there can be seen. -/
def KeepsVisible : Fault → Prop
  | invalidIndex digits | numberTooLarge digits => Visible digits.toList
  | duplicateFlag flag | flagNotApplicable flag _ | missingWidth flag => isControl flag = false
  | exclusiveFlags first second => isControl first = false ∧ isControl second = false
  | unknownConversion _ | unknownDateSuffix _ | precisionNotAllowed _ | widthNotAllowed _ => True

theorem visible_foundText (found : Option Char) : Visible (foundText found).toList := by
  cases found with
  | none => exact visible_literal rfl
  | some c => exact .framed (visible_ofList (visible_escapeChar c)) rfl rfl

theorem visible_toString {c : Char} (h : isControl c = false) : Visible c.toString.toList := by
  simpa using h

/-- A message repeats what the fault keeps. What was found in the place of a conversion is not
kept as it stands, but escaped. -/
theorem visible_message {fault : Fault} (h : fault.KeepsVisible) :
    Visible fault.message.toList := by
  cases fault with
  | unknownConversion found => exact .append (visible_literal rfl) (visible_foundText found)
  | unknownDateSuffix found => exact .framed (visible_foundText found) rfl rfl
  | invalidIndex digits => exact .framed h rfl rfl
  | numberTooLarge digits => exact .framed h rfl rfl
  | duplicateFlag flag => exact .framed (visible_toString h) rfl rfl
  | flagNotApplicable flag conversion =>
      exact .between (.framed (visible_toString h) rfl rfl) conversion.visible_text
        (visible_literal rfl)
  | exclusiveFlags first second =>
      exact .between (.framed (visible_toString h.1) rfl rfl) (visible_toString h.2)
        (visible_literal rfl)
  | precisionNotAllowed conversion => exact .framed conversion.visible_text rfl rfl
  | missingWidth flag => exact .framed (visible_toString h) rfl rfl
  | widthNotAllowed conversion => exact .framed conversion.visible_text rfl rfl

theorem visible_label (fault : Fault) : Visible fault.label.toList := by
  cases fault <;> exact visible_literal rfl

theorem visible_hint? {fault : Fault} {hint : String} (h : fault.hint? = some hint) :
    Visible hint.toList := by
  unfold hint? at h
  split at h
  case h_2 =>
    split at h
    · cases h
      exact visible_literal rfl
    · cases h
  all_goals cases h
  all_goals exact visible_literal rfl

end Fault

/-! ## Faults that are raised -/

theorem visible_of_isDigit {digits : List Char} (h : ∀ c ∈ digits, c.isDigit = true) :
    Visible (String.ofList digits).toList :=
  visible_ofList fun c hc => isControl_of_isDigit (h c hc)

/-- Every rule names a flag or the relative mark. -/
theorem Specifier.keepsVisible_of_fault? {specifier : Specifier} {fault : Fault}
    (h : specifier.fault? = some fault) : fault.KeepsVisible := by
  have hrelative : isControl '<' = false := by decide
  unfold fault? at h
  dsimp only at h
  repeat' split at h
  all_goals cases h
  · trivial
  · trivial
  · exact Flag.isControl_toChar _
  · exact hrelative
  · exact Flag.isControl_toChar _
  · exact Flag.isControl_toChar _
  · exact ⟨Flag.isControl_toChar _, Flag.isControl_toChar _⟩
  · exact ⟨Flag.isControl_toChar _, Flag.isControl_toChar _⟩

theorem Fault.OfSpecifier.keepsVisible {fault : Fault} (h : fault.OfSpecifier) :
    fault.KeepsVisible := by
  cases h with
  | opening h =>
      cases h with
      | invalidIndex hdigits => exact visible_of_isDigit hdigits
      | numberTooLarge hdigits => exact visible_of_isDigit hdigits
      | duplicateFlag hmark => exact Mark.isControl_of_ofChar? hmark
  | unknownConversion found => trivial
  | unknownDateSuffix found => trivial
  | rule h => exact Specifier.keepsVisible_of_fault? h

/-- The message of a format text that is refused can be seen. -/
theorem visible_of_parse {format : String} {fault : Located Fault}
    (h : parse format = .error fault) : Visible fault.value.message.toList := by
  obtain ⟨chunks, after, -, hstep⟩ := exists_reached_of_error h
  obtain ⟨rest, stop, -, hread, -⟩ := Input.exists_of_failed hstep
  exact Fault.visible_message (Reader.raises_specifier _ _ _ hread).keepsVisible

end FormatCheck
