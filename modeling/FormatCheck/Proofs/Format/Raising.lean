import FormatCheck.Proofs.Format.Passage

/-! # Faults that are raised

Each reader raises only some of the faults, and puts into them only some of the text: digits
that it read as a number, or a mark that it met twice. -/

namespace FormatCheck

namespace Fault

/-- A fault of what stands before the conversion. -/
inductive OfOpening : Fault → Prop where
  | invalidIndex {digits : List Char} (h : ∀ c ∈ digits, c.isDigit = true) :
      OfOpening (.invalidIndex (String.ofList digits))
  | numberTooLarge {digits : List Char} (h : ∀ c ∈ digits, c.isDigit = true) :
      OfOpening (.numberTooLarge (String.ofList digits))
  | duplicateFlag {c : Char} {mark : Mark} (h : Mark.ofChar? c = some mark) :
      OfOpening (.duplicateFlag c)

/-- A fault of a specifier: of what stands before the conversion, of the conversion, or
against the rules. -/
inductive OfSpecifier : Fault → Prop where
  | opening {fault : Fault} (h : fault.OfOpening) : OfSpecifier fault
  | unknownConversion (found : Option Char) : OfSpecifier (.unknownConversion found)
  | unknownDateSuffix (found : Option Char) : OfSpecifier (.unknownDateSuffix found)
  | rule {fault : Fault} {specifier : Specifier} (h : specifier.fault? = some fault) :
      OfSpecifier fault

end Fault

namespace Reader

/-- Every fault at which the reader stops has a property. -/
def Raises {α : Type} (P : Fault → Prop) (reader : Reader α) : Prop :=
  ∀ (input stop : Input) (fault : Fault), reader input = .error fault stop → P fault

section

variable {α β : Type} {P Q : Fault → Prop}

theorem Raises.mono {reader : Reader α} (hr : Raises P reader) (h : ∀ fault, P fault → Q fault) :
    Raises Q reader :=
  fun input stop fault hread => h fault (hr input stop fault hread)

theorem raises_pure (a : α) : Raises P (pure a : Reader α) := by
  intro input stop fault h
  cases h

theorem raises_throw {fault : Fault} (h : P fault) : Raises P (throw fault : Reader α) := by
  intro input stop found hthrow
  cases hthrow
  exact h

/-- Behind a reader the next one starts from a value that the first one returned. -/
theorem Raises.bind {reader : Reader α} {next : α → Reader β} (hr : Raises P reader)
    (hn : ∀ input mid a, reader input = .ok a mid → Raises P (next a)) :
    Raises P (reader >>= next) := by
  intro input stop fault h
  simp only [Bind.bind, EStateM.bind] at h
  cases hread : reader input with
  | ok a mid =>
      rw [hread] at h
      exact hn input mid a hread mid stop fault h
  | error found mid =>
      rw [hread] at h
      cases h
      exact hr input stop fault hread

theorem raises_next : Raises P next := by
  intro input stop fault h
  rw [next] at h
  split at h <;> cases h

theorem raises_lookahead : Raises P lookahead := by
  intro input stop fault h
  cases h

theorem raises_takeWhile (p : Char → Bool) : Raises P (takeWhile p) := by
  intro input stop fault h
  cases h

end

/-! ## The parts of a specifier -/

theorem raises_index : Raises Fault.OfOpening index := by
  intro input stop fault h
  rw [index] at h
  split at h
  · rename_i d digits offset rest htake
    split at h
    · cases h
    · cases h
      exact .invalidIndex (Input.takeWhile_eq_iff.mp htake).2.1
  · cases h

theorem ofOpening_of_readFrom {rest : List Char} {found : Marks} {offset : Nat} {stop : Input}
    {fault : Fault} (h : found.readFrom offset rest = .error fault stop) : fault.OfOpening := by
  induction rest generalizing found offset with
  | nil => cases h
  | cons c rest ih =>
      rw [Marks.readFrom] at h
      split at h
      · cases h
      · rename_i mark hmark
        split at h
        · cases h
          exact .duplicateFlag hmark
        · exact ih h

theorem raises_marks : Raises Fault.OfOpening marks :=
  fun _ _ _ h => ofOpening_of_readFrom h

theorem raises_number : Raises Fault.OfOpening number := by
  refine (raises_takeWhile _).bind fun input mid digits hread => ?_
  split
  · exact raises_pure _
  · split
    · exact raises_pure _
    · exact raises_throw (.numberTooLarge (takeWhile_eq_ok_iff.mp hread).2.1)

theorem raises_precision : Raises Fault.OfOpening precision := by
  refine raises_lookahead.bind fun _ _ rest _ => ?_
  split
  · split
    · exact raises_next.bind fun _ _ _ _ => raises_number
    · exact raises_pure _
  · exact raises_pure _

theorem raises_conversion : Raises Fault.OfSpecifier conversion := by
  refine raises_next.bind fun _ _ found _ => ?_
  split
  · exact raises_throw (.unknownConversion _)
  · split
    · refine raises_next.bind fun _ _ _ _ => ?_
      split
      · exact raises_pure _
      · exact raises_throw (.unknownDateSuffix _)
    · split
      · exact raises_pure _
      · exact raises_throw (.unknownConversion _)

theorem raises_specifier : Raises Fault.OfSpecifier specifier := by
  have hopening : ∀ {α : Type} {reader : Reader α}, Raises Fault.OfOpening reader →
      Raises Fault.OfSpecifier reader :=
    fun hr => hr.mono fun _ => .opening
  refine (hopening raises_index).bind fun _ _ _ _ => (hopening raises_marks).bind fun _ _ _ _ =>
    (hopening raises_number).bind fun _ _ _ _ => (hopening raises_precision).bind fun _ _ _ _ =>
    raises_conversion.bind fun _ _ _ _ => ?_
  dsimp only
  split
  · exact raises_throw (.rule ‹_›)
  · exact raises_pure _

end Reader

end FormatCheck
