/-! # Decimal numerals -/

namespace FormatCheck.Decimal

/-- The digits of a number, without leading zeros. -/
def digits (n : Nat) : List Char :=
  Nat.toDigits 10 n

/-- The digits of a number as text. -/
def text (n : Nat) : String :=
  String.ofList (digits n)

/-- The number that a run of digits denotes; leading zeros are allowed. -/
def value (ds : List Char) : Nat :=
  Nat.ofDigitChars 10 ds 0

/-- The number that a run of digits denotes, if it fits in 32 bits. -/
def word? (ds : List Char) : Option UInt32 :=
  if value ds < UInt32.size then some (UInt32.ofNat (value ds)) else none

@[simp] theorem value_digits (n : Nat) : value (digits n) = n :=
  Nat.ofDigitChars_ten_toDigits

theorem isDigit_of_mem_digits {c : Char} {n : Nat} (h : c ∈ digits n) : c.isDigit :=
  Nat.isDigit_of_mem_toDigits (by decide) (by decide) h

theorem digits_ne_nil (n : Nat) : digits n ≠ [] :=
  Nat.toDigits_ne_nil

/-- Only zero is written with a zero in front. -/
theorem head?_digits {n : Nat} (h : n ≠ 0) : (digits n).head? ≠ some '0' := by
  induction n using Nat.strongRecOn with
  | ind n ih =>
      by_cases hn : n < 10
      · rw [digits, Nat.toDigits_of_lt_base hn]
        have hdigit : ∀ d < 10, d ≠ 0 → [d.digitChar].head? ≠ some '0' := by decide
        exact hdigit n hn h
      · have hquotient : n / 10 ≠ 0 := by omega
        have hfirst := ih (n / 10) (by omega) hquotient
        obtain ⟨d, ds, hdigits⟩ := List.exists_cons_of_ne_nil (digits_ne_nil (n / 10))
        rw [digits, Nat.toDigits_of_base_le (by decide) (by omega), ← digits, hdigits]
        rwa [hdigits] at hfirst

@[simp] theorem word?_digits (n : UInt32) : word? (digits n.toNat) = some n := by
  simp [word?, n.toNat_lt_size]

end FormatCheck.Decimal
