import FormatCheck.Text.Bytes

/-! # Reading positions -/

namespace FormatCheck

/-- The unread part of a format text and the number of bytes before it. -/
structure Input where
  offset : Nat
  rest : List Char
deriving DecidableEq

namespace Input

def ofText (text : String) : Input :=
  ⟨0, text.toList⟩

/-- The next character and what follows it. -/
def next? : Input → Option (Char × Input)
  | ⟨_, []⟩ => none
  | ⟨offset, c :: rest⟩ => some (c, ⟨offset + c.utf8Size, rest⟩)

/-- The longest run of characters that satisfy `p`, and what follows it. -/
def takeWhile (p : Char → Bool) (input : Input) : List Char × Input :=
  let run := input.rest.takeWhile p
  (run, ⟨input.offset + Text.byteLength run, input.rest.dropWhile p⟩)

/-! ## Progress -/

/-- Reading some characters of `before` leads to `after`. -/
def Leads (before after : Input) : Prop :=
  ∃ read, before.rest = read ++ after.rest ∧
    after.offset = before.offset + Text.byteLength read

theorem Leads.refl (input : Input) : input.Leads input :=
  ⟨[], rfl, rfl⟩

theorem Leads.trans {a b c : Input} (hab : a.Leads b) (hbc : b.Leads c) : a.Leads c := by
  obtain ⟨r, hr, ho⟩ := hab
  obtain ⟨s, hs, hp⟩ := hbc
  exact ⟨r ++ s, by rw [hr, hs, List.append_assoc], by rw [hp, ho, Text.byteLength_append]; omega⟩

theorem Leads.length_le {a b : Input} (h : a.Leads b) : b.rest.length ≤ a.rest.length := by
  obtain ⟨r, hr, -⟩ := h
  simp [hr]

theorem leads_cons (offset : Nat) (c : Char) (rest : List Char) :
    Leads ⟨offset, c :: rest⟩ ⟨offset + c.utf8Size, rest⟩ :=
  ⟨[c], rfl, by simp⟩

theorem leads_of_next? {input after : Input} {c : Char} (h : input.next? = some (c, after)) :
    input.Leads after := by
  obtain ⟨offset, rest⟩ := input
  cases rest with
  | nil => simp [next?] at h
  | cons d rest =>
      simp only [next?, Option.some.injEq, Prod.mk.injEq] at h
      obtain ⟨rfl, rfl⟩ := h
      exact leads_cons offset d rest

theorem leads_takeWhile (p : Char → Bool) (input : Input) :
    input.Leads (input.takeWhile p).2 :=
  ⟨input.rest.takeWhile p, by simp [takeWhile], rfl⟩

end Input

end FormatCheck
