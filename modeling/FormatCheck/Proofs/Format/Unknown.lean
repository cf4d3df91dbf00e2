import FormatCheck.Proofs.Format.Raising
import FormatCheck.Proofs.Format.Specifiers

/-! # Unknown conversions

Only where a conversion is due can it be unknown. All that stands before it is then a
written opening, and what was found is the next character, or the end of the text. -/

namespace FormatCheck

/-- No rule for flags, width and precision makes a conversion unknown. -/
theorem Specifier.fault?_ne_unknown (specifier : Specifier) (found : Option Char) :
    specifier.fault? ≠ some (.unknownConversion found) := by
  unfold fault?
  dsimp only
  repeat' split
  all_goals simp

namespace Reader

/-- The reader never finds a conversion unknown. -/
def NoUnknown {α : Type} (reader : Reader α) : Prop :=
  ∀ (input stop : Input) (found : Option Char),
    reader input ≠ .error (.unknownConversion found) stop

theorem noUnknown_of_raises {α : Type} {reader : Reader α}
    (h : Raises Fault.OfOpening reader) : NoUnknown reader := by
  intro input stop found hread
  cases h input stop _ hread

/-- Behind such a reader only the next one can find a conversion unknown. -/
theorem NoUnknown.exists_of_bind {α β : Type} {reader : Reader α} {next : α → Reader β}
    {input stop : Input} {found : Option Char} (hr : NoUnknown reader)
    (h : (reader >>= next) input = .error (.unknownConversion found) stop) :
    ∃ a mid, reader input = .ok a mid ∧ next a mid = .error (.unknownConversion found) stop := by
  simp only [Bind.bind, EStateM.bind] at h
  cases hread : reader input with
  | ok a mid =>
      rw [hread] at h
      exact ⟨a, mid, rfl, h⟩
  | error fault mid =>
      rw [hread] at h
      cases h
      exact absurd hread (hr input stop found)

/-! ## Conversions that are looked for -/

/-- What is looked for and not known is the next character, if there is one. -/
theorem head_of_unknown {input stop : Input} {found : Option Char}
    (h : conversion input = .error (.unknownConversion found) stop) :
    found = input.rest.head? ∧ input.Reads found.toList stop := by
  cases hrest : input.rest with
  | nil =>
      obtain ⟨offset, unread⟩ := input
      subst hrest
      cases h
      exact ⟨rfl, .refl _⟩
  | cons c rest =>
      by_cases hc : c = 't' ∨ c = 'T'
      · rw [conversion_of_date hrest hc] at h
        split at h
        · cases h
        · split at h <;> cases h
      · obtain ⟨ht, hT⟩ := not_or.mp hc
        rw [conversion_of_cons hrest ht hT] at h
        split at h
        · cases h
        · cases h
          exact ⟨rfl, Input.reads_cons hrest⟩

theorem conversion_of_closing {opening : Opening} {input stop : Input} {found : Option Char}
    (h : closing opening input = .error (.unknownConversion found) stop) :
    conversion input = .error (.unknownConversion found) stop := by
  simp only [closing, Bind.bind, EStateM.bind] at h
  cases hread : conversion input with
  | ok result mid =>
      -- Behind a known conversion only the rules for a specifier can fail.
      cases hfault : (opening.specifier result.1 result.2).fault? with
      | none =>
          simp only [hread, hfault] at h
          cases h
      | some fault =>
          simp only [hread, hfault] at h
          cases h
          exact absurd hfault (Specifier.fault?_ne_unknown _ found)
  | error fault mid =>
      rw [hread] at h
      cases h
      rfl

/-- A conversion that is unknown stands behind a written opening. -/
theorem exists_opening_of_unknown {input stop : Input} {found : Option Char}
    (h : specifier input = .error (.unknownConversion found) stop) :
    ∃ (opening : Opening) (mid : Input), input.Reads opening.chars mid ∧
      found = mid.rest.head? ∧ mid.Reads found.toList stop := by
  have hspecifier := h
  obtain ⟨i, a, hindex, h⟩ := (noUnknown_of_raises raises_index).exists_of_bind h
  obtain ⟨marks, b, hmarks, h⟩ := (noUnknown_of_raises raises_marks).exists_of_bind h
  obtain ⟨w, c, hnumber, h⟩ := (noUnknown_of_raises raises_number).exists_of_bind h
  obtain ⟨p, mid, hprecision, -⟩ := (noUnknown_of_raises raises_precision).exists_of_bind h
  obtain ⟨opening, hreads, hclosing⟩ :=
    exists_opening_of_parts hindex hmarks hnumber hprecision
  rw [hspecifier] at hclosing
  exact ⟨opening, mid, hreads, head_of_unknown (conversion_of_closing hclosing.symm)⟩

end Reader

end FormatCheck
