/-! # Byte offsets in text -/

namespace FormatCheck.Text

/-- The number of bytes that the characters take in UTF-8. -/
def byteLength (cs : List Char) : Nat :=
  cs.foldr (fun c n => c.utf8Size + n) 0

@[simp] theorem byteLength_nil : byteLength [] = 0 := rfl

@[simp] theorem byteLength_cons (c : Char) (cs : List Char) :
    byteLength (c :: cs) = c.utf8Size + byteLength cs := rfl

@[simp] theorem byteLength_append (as bs : List Char) :
    byteLength (as ++ bs) = byteLength as + byteLength bs := by
  induction as with
  | nil => simp
  | cons c as ih => simp [ih, Nat.add_assoc]

theorem byteLength_pos {cs : List Char} (h : cs ≠ []) : 0 < byteLength cs := by
  cases cs with
  | nil => exact absurd rfl h
  | cons c cs =>
      have hc := c.utf8Size_pos
      rw [byteLength_cons]
      omega

/-- Moves characters from the second list to the front of the reversed first one
until `offset` bytes are gone. -/
def cutFrom? (before : List Char) : Nat → List Char → Option (List Char × List Char)
  | 0, cs => some (before.reverse, cs)
  | _ + 1, [] => none
  | offset + 1, c :: cs =>
      if c.utf8Size ≤ offset + 1 then cutFrom? (c :: before) (offset + 1 - c.utf8Size) cs
      else none
termination_by _ cs => cs

/-- The text before and after a byte offset; there is none when the offset lies
past the end or inside a character. -/
def cut? (offset : Nat) (cs : List Char) : Option (List Char × List Char) :=
  cutFrom? [] offset cs

theorem cutFrom?_eq_some_iff {before cs as bs : List Char} {offset : Nat} :
    cutFrom? before offset cs = some (as, bs) ↔
      ∃ front, as = before.reverse ++ front ∧ cs = front ++ bs ∧ byteLength front = offset := by
  fun_induction cutFrom? before offset cs with
  | case1 before cs =>
      constructor
      · intro h
        simp only [Option.some.injEq, Prod.mk.injEq] at h
        exact ⟨[], by simp [h.1], by simp [h.2], rfl⟩
      · rintro ⟨front, rfl, rfl, hf⟩
        cases front with
        | nil => simp
        | cons c front => have := c.utf8Size_pos; simp at hf; omega
  | case2 before offset =>
      simp only [reduceCtorEq, false_iff, not_exists, not_and]
      rintro front - hcs hf
      have : front = [] := (List.append_eq_nil_iff.mp hcs.symm).1
      simp [this] at hf
  | case3 before offset c cs hc ih =>
      rw [ih]
      clear ih
      constructor
      · rintro ⟨front, rfl, rfl, hf⟩
        refine ⟨c :: front, by simp, by simp, ?_⟩
        simp only [byteLength_cons, hf]; omega
      · rintro ⟨front, rfl, hcs, hf⟩
        cases front with
        | nil => simp at hf
        | cons d front =>
            obtain ⟨rfl, rfl⟩ := List.cons.inj hcs
            refine ⟨front, by simp, rfl, ?_⟩
            simp only [byteLength_cons] at hf; omega
  | case4 before offset c cs hc =>
      simp only [reduceCtorEq, false_iff, not_exists, not_and]
      rintro front - hcs hf
      cases front with
      | nil => simp at hf
      | cons d front =>
          obtain ⟨rfl, -⟩ := List.cons.inj hcs
          simp at hf; omega

/-- A cut returns exactly the two parts of the text that meet at the offset. -/
theorem cut?_eq_some_iff {offset : Nat} {cs as bs : List Char} :
    cut? offset cs = some (as, bs) ↔ cs = as ++ bs ∧ byteLength as = offset := by
  simp [cut?, cutFrom?_eq_some_iff]

end FormatCheck.Text
