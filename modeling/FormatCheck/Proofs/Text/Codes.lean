/-! # Codes in a text

A terminal obeys the codes in a text and shows the characters between them. A code starts with
an escape character and a bracket and ends with an `m`; its parameters stand between. -/

namespace FormatCheck.Text

/-- What a terminal finds in a text: a character to show, or a code with its parameters. -/
inductive Token where
  | char (c : Char)
  | code (parameters : List Char)
deriving DecidableEq

def Token.char? : Token → Option Char
  | char c => some c
  | code _ => none

/-- Parameters are made of digits and of the marks from the colon to the question mark. -/
def isParameter (c : Char) : Bool :=
  '0' ≤ c && c ≤ '?'

/-- The parameters of the code that a text starts with, and what follows the code. -/
def code? : List Char → Option (List Char × List Char)
  | '\x1b' :: '[' :: cs =>
      match cs.dropWhile isParameter with
      | 'm' :: rest => some (cs.takeWhile isParameter, rest)
      | _ => none
  | _ => none

theorem code?_eq_some {cs parameters rest : List Char} (h : code? cs = some (parameters, rest)) :
    cs = '\x1b' :: '[' :: (parameters ++ 'm' :: rest) := by
  unfold code? at h
  split at h
  · split at h
    · rename_i hdrop
      cases h
      rw [← hdrop, List.takeWhile_append_dropWhile]
    · cases h
  · cases h

theorem code?_code {parameters : List Char} (h : parameters.all isParameter) (rest : List Char) :
    code? ('\x1b' :: '[' :: (parameters ++ 'm' :: rest)) = some (parameters, rest) := by
  have hstop : isParameter 'm' = false := rfl
  have hall : ∀ c ∈ parameters, isParameter c = true := List.all_eq_true.mp h
  simp [code?, List.takeWhile_append_of_pos hall, List.dropWhile_append_of_pos hall, hstop]

theorem code?_of_ne {c : Char} (h : c ≠ '\x1b') (cs : List Char) : code? (c :: cs) = none := by
  unfold code?
  split
  · rename_i heq
    exact absurd (List.cons.inj heq).1 h
  · rfl

/-- A text as a terminal reads it, from the front. -/
def tokens : List Char → List Token
  | [] => []
  | c :: cs =>
      match _ : code? (c :: cs) with
      | some (parameters, rest) => .code parameters :: tokens rest
      | none => .char c :: tokens cs
termination_by cs => cs.length
decreasing_by
  · have hlength := congrArg List.length (code?_eq_some ‹code? _ = _›)
    simp only [List.length_cons, List.length_append] at hlength ⊢
    omega
  · simp

/-- What is left of a text when every code in it is deleted. -/
def withoutCodes (cs : List Char) : List Char :=
  (tokens cs).filterMap Token.char?

@[simp] theorem tokens_nil : tokens [] = [] := by
  rw [tokens]

theorem tokens_cons (c : Char) (cs : List Char) :
    tokens (c :: cs) =
      match code? (c :: cs) with
      | some (parameters, rest) => .code parameters :: tokens rest
      | none => .char c :: tokens cs := by
  rw [tokens]
  split <;> simp [*]

theorem tokens_code {parameters : List Char} (h : parameters.all isParameter)
    (rest : List Char) :
    tokens ('\x1b' :: '[' :: (parameters ++ 'm' :: rest)) = .code parameters :: tokens rest := by
  rw [tokens_cons, code?_code h]

theorem tokens_of_ne {c : Char} (h : c ≠ '\x1b') (cs : List Char) :
    tokens (c :: cs) = .char c :: tokens cs := by
  rw [tokens_cons, code?_of_ne h]

theorem tokens_append {cs : List Char} (h : '\x1b' ∉ cs) (rest : List Char) :
    tokens (cs ++ rest) = cs.map .char ++ tokens rest := by
  induction cs with
  | nil => rfl
  | cons c cs ih =>
      have hc : c ≠ '\x1b' := fun heq => h (heq ▸ List.mem_cons_self)
      have hcs : '\x1b' ∉ cs := fun hmem => h (List.mem_cons_of_mem c hmem)
      rw [List.cons_append, tokens_of_ne hc, ih hcs]
      rfl

/-! ## Styles that are switched off -/

/-- Zero resets everything, and so does a code without parameters. -/
def IsReset (parameters : List Char) : Prop :=
  parameters = [] ∨ parameters = ['0']

/-- A code that switches something on is followed by a reset, with nothing but characters
between the two. -/
def SwitchesOff (tokens : List Token) : Prop :=
  ∀ before on behind, tokens = before ++ .code on :: behind → ¬ IsReset on →
    ∃ (between off : List Char) (rest : List Token),
      behind = between.map .char ++ .code off :: rest ∧ IsReset off

namespace SwitchesOff

theorem map_char (cs : List Char) : SwitchesOff (cs.map .char) := by
  intro before on behind htokens
  have hcode : Token.code on ∈ cs.map Token.char := by simp [htokens]
  simp at hcode

theorem styled (on cs : List Char) {off : List Char} (hoff : IsReset off) :
    SwitchesOff (.code on :: (cs.map .char ++ [.code off])) := by
  intro before code behind htokens hcode
  cases before with
  | nil =>
      obtain ⟨-, rfl⟩ := List.cons.inj htokens
      exact ⟨cs, off, [], rfl, hoff⟩
  | cons _ before =>
      obtain ⟨-, htokens⟩ := List.cons.inj htokens
      have hmem : Token.code code ∈ cs.map Token.char ++ [.code off] := by simp [htokens]
      have heq : code = off := by simpa using hmem
      exact absurd (heq ▸ hoff) hcode

theorem append {first second : List Token} (hfirst : SwitchesOff first)
    (hsecond : SwitchesOff second) : SwitchesOff (first ++ second) := by
  intro before on behind htokens hon
  -- The code stands in the second part, or in the first with the second part behind it.
  rcases List.append_eq_append_iff.mp htokens with ⟨middle, rfl, hsplit⟩ | ⟨middle, rfl, hsplit⟩
  · exact hsecond middle on behind hsplit hon
  · cases middle with
    | nil => exact hsecond [] on behind hsplit.symm hon
    | cons token middle =>
        obtain ⟨rfl, rfl⟩ := List.cons.inj hsplit
        obtain ⟨between, off, rest, rfl, hoff⟩ := hfirst before on middle rfl hon
        exact ⟨between, off, rest ++ second, by simp, hoff⟩

theorem flatMap {α : Type} {f : α → List Token} (h : ∀ item, SwitchesOff (f item))
    (items : List α) : SwitchesOff (items.flatMap f) := by
  induction items with
  | nil => exact map_char []
  | cons item items ih => exact (h item).append ih

end SwitchesOff

end FormatCheck.Text
