import FormatCheck.Proofs.Format.Spelling

/-! # Text between two inputs -/

namespace FormatCheck

namespace Input

/-- Reading exactly `text` leads from `before` to `after`. -/
def Reads (before : Input) (text : List Char) (after : Input) : Prop :=
  before.rest = text ++ after.rest ∧ after.offset = before.offset + Text.byteLength text

theorem Reads.refl (input : Input) : input.Reads [] input :=
  ⟨rfl, rfl⟩

theorem Reads.append {a b c : Input} {s t : List Char} (hab : a.Reads s b) (hbc : b.Reads t c) :
    a.Reads (s ++ t) c := by
  obtain ⟨hs, ho⟩ := hab
  obtain ⟨ht, hp⟩ := hbc
  refine ⟨by rw [hs, ht, List.append_assoc], ?_⟩
  rw [hp, ho, Text.byteLength_append, Nat.add_assoc]

/-- A text in two parts passes an input between them. -/
theorem Reads.split {a c : Input} {s t : List Char} (h : a.Reads (s ++ t) c) :
    ∃ b : Input, a.Reads s b ∧ b.Reads t c := by
  obtain ⟨hs, ho⟩ := h
  let b : Input := ⟨a.offset + Text.byteLength s, t ++ c.rest⟩
  refine ⟨b, ⟨by rw [hs, List.append_assoc], rfl⟩, rfl, ?_⟩
  rw [ho, Text.byteLength_append, Nat.add_assoc]

theorem Reads.after_eq {a b c : Input} {s : List Char} (hb : a.Reads s b) (hc : a.Reads s c) :
    b = c := by
  obtain ⟨bo, br⟩ := b
  obtain ⟨co, cr⟩ := c
  obtain ⟨hb, hbo⟩ := hb
  obtain ⟨hc, hco⟩ := hc
  simp only at hb hc hbo hco
  rw [hb] at hc
  rw [hbo, hco, List.append_cancel_left hc]

theorem Reads.text_eq {a b : Input} {s t : List Char} (hs : a.Reads s b) (ht : a.Reads t b) :
    s = t := by
  have h := hs.1
  rw [ht.1] at h
  exact (List.append_cancel_right h).symm

theorem reads_cons {input : Input} {c : Char} {rest : List Char} (h : input.rest = c :: rest) :
    input.Reads [c] ⟨input.offset + c.utf8Size, rest⟩ :=
  ⟨h, by simp⟩

theorem reads_append (offset : Nat) (text rest : List Char) :
    Reads ⟨offset, text ++ rest⟩ text ⟨offset + Text.byteLength text, rest⟩ :=
  ⟨rfl, rfl⟩

/-- No character that satisfies `p` comes next. -/
def Stops (p : Char → Bool) (input : Input) : Prop :=
  ∀ c ∈ input.rest.head?, p c = false

/-- What comes next is the start of the text that is read next, if there is any. -/
theorem Reads.stops {p : Char → Bool} {a b : Input} {text : List Char} (h : a.Reads text b)
    (htext : ∀ c ∈ text.head?, p c = false) (hempty : text = [] → b.Stops p) : a.Stops p := by
  cases text with
  | nil =>
      rw [← h.after_eq (.refl a)]
      exact hempty rfl
  | cons d text =>
      intro c hc
      rw [h.1] at hc
      exact htext c (by simpa using hc)

theorem takeWhile_eq_iff {p : Char → Bool} {input after : Input} {run : List Char} :
    input.takeWhile p = (run, after) ↔
      input.Reads run after ∧ (∀ c ∈ run, p c = true) ∧ after.Stops p := by
  constructor
  · intro h
    simp only [takeWhile, Prod.mk.injEq] at h
    obtain ⟨rfl, rfl⟩ := h
    refine ⟨⟨by simp, rfl⟩, List.all_eq_true.mp List.all_takeWhile, ?_⟩
    intro c hc
    have h := List.head?_dropWhile_not p input.rest
    simp only [Option.mem_def] at hc
    rwa [hc] at h
  · intro h
    obtain ⟨hr, hrun, hstop⟩ := h
    have hdrop : after.rest.dropWhile p = after.rest ∧ after.rest.takeWhile p = [] := by
      cases hrest : after.rest with
      | nil => simp
      | cons c rest => simp [hstop c (by simp [hrest])]
    obtain ⟨hrest, hoffset⟩ := hr
    simp only [takeWhile, hrest, List.takeWhile_append_of_pos hrun,
      List.dropWhile_append_of_pos hrun, hdrop, List.append_nil, ← hoffset]

end Input

/-! ## Results of readers -/

namespace Reader

theorem bind_eq_ok_iff {α β : Type} {reader : Reader α} {next : α → Reader β}
    {input after : Input} {b : β} :
    (reader >>= next) input = .ok b after ↔
      ∃ a mid, reader input = .ok a mid ∧ next a mid = .ok b after := by
  simp only [Bind.bind, EStateM.bind]
  cases reader input with
  | ok a mid =>
      constructor
      · intro h
        exact ⟨a, mid, rfl, h⟩
      · intro h
        obtain ⟨_, _, h, hn⟩ := h
        cases h
        exact hn
  | error fault mid => simp

theorem bind_of_ok {α β : Type} {reader : Reader α} {next : α → Reader β} {input mid : Input}
    {a : α} (h : reader input = .ok a mid) : (reader >>= next) input = next a mid := by
  simp only [Bind.bind, EStateM.bind, h]

theorem pure_eq_ok_iff {α : Type} {a b : α} {input after : Input} :
    (pure a : Reader α) input = .ok b after ↔ a = b ∧ input = after := by
  simp [pure, EStateM.pure]

theorem throw_ne_ok {α : Type} {fault : Fault} {a : α} {input after : Input} :
    (throw fault : Reader α) input ≠ .ok a after := by
  intro h
  cases h

theorem takeWhile_eq_ok_iff {p : Char → Bool} {run : List Char} {input after : Input} :
    takeWhile p input = .ok run after ↔
      input.Reads run after ∧ (∀ c ∈ run, p c = true) ∧ after.Stops p := by
  rw [← Input.takeWhile_eq_iff, takeWhile]
  simp [Prod.ext_iff]

theorem next_eq_ok {input : Input} {c : Char} {rest : List Char} (h : input.rest = c :: rest) :
    next input = .ok (some c) ⟨input.offset + c.utf8Size, rest⟩ := by
  obtain ⟨offset, unread⟩ := input
  subst h
  rfl

end Reader

end FormatCheck
