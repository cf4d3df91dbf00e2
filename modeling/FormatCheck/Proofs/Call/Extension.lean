import FormatCheck.Proofs.Call.Rewording
import FormatCheck.Proofs.Format.Composition

/-! # Texts that go on

A failure on an argument in the front part of a text is final: whatever follows, it is the
failure of the whole text. If the specifiers of the front part pass, none of them fails
because of what follows. -/

namespace FormatCheck

/-- The problem of a specifier with its argument, which is missing or rejected. -/
def Problem.IsOfArgument : Problem → Prop
  | missing _ | mismatch .. => True
  | malformed _ | extra .. => False

/-- A failure that a specifier causes: it stands at its range, and an argument that is
rejected there is one of those supplied. -/
inductive CausedBy (arguments : List Signature) (specifier : Located Specifier) :
    Located Problem → Prop where
  | missing (reason : Missing) :
      CausedBy arguments specifier ⟨.missing reason, specifier.span⟩
  | mismatch {actual : Signature} (position : UInt32) (expected : Family) (reason : Mismatch)
      (hsupplied : actual ∈ arguments) :
      CausedBy arguments specifier
        ⟨.mismatch specifier.value position expected actual reason, specifier.span⟩

namespace CausedBy

variable {arguments : List Signature} {specifier : Located Specifier} {problem : Located Problem}

theorem span_eq (h : CausedBy arguments specifier problem) : problem.span = specifier.span := by
  cases h <;> rfl

theorem isOfArgument (h : CausedBy arguments specifier problem) : problem.value.IsOfArgument := by
  cases h <;> trivial

end CausedBy

/-! ## One specifier -/

/-- What is wrong with the argument at a position is caused by the specifier. -/
theorem Specifier.causedBy_of_problem? {specifier : Located Specifier} {position : UInt32}
    {arguments : List Signature} {problem : Problem}
    (h : specifier.value.problem? position arguments = some problem) :
    CausedBy arguments specifier ⟨problem, specifier.span⟩ := by
  cases hfamily : specifier.value.conversion.family? with
  | none => simp [problem?, hfamily] at h
  | some family =>
      cases hargument : arguments[position.toNat - 1]? with
      | none =>
          simp only [problem?, hfamily, hargument, Option.some.injEq] at h
          subst h
          exact .missing _
      | some argument =>
          simp only [problem?, hfamily, hargument, Option.map_eq_some_iff] at h
          obtain ⟨reason, -, rfl⟩ := h
          exact .mismatch position family reason (List.mem_of_getElem? hargument)

/-! ## Following specifiers -/

namespace Tracker

/-- Specifiers are followed in two parts: the second one only if the first one passes, and
from what is known then. -/
theorem follow_append (arguments : List Signature) (tracker : Tracker)
    (specifiers others : List (Located Specifier)) :
    tracker.follow arguments (specifiers ++ others) =
      match tracker.follow arguments specifiers with
      | .error problem => .error problem
      | .ok last => last.follow arguments others := by
  induction specifiers generalizing tracker with
  | nil => rfl
  | cons specifier rest ih =>
      rw [List.cons_append]
      cases hresolve : tracker.resolve specifier.value with
      | error reason => simp only [follow, hresolve]
      | ok result =>
          obtain ⟨position?, after⟩ := result
          rw [follow_cons_of_ok hresolve, follow_cons_of_ok hresolve]
          cases specifier.value.failure? position? arguments with
          | some problem => rfl
          | none => exact ih after

/-- A failure is caused by one of the specifiers that are followed. -/
theorem exists_causedBy_of_follow {arguments : List Signature} {tracker : Tracker}
    {specifiers : List (Located Specifier)} {problem : Located Problem}
    (h : tracker.follow arguments specifiers = .error problem) :
    ∃ specifier ∈ specifiers, CausedBy arguments specifier problem := by
  induction specifiers generalizing tracker with
  | nil => cases h
  | cons specifier rest ih =>
      cases hresolve : tracker.resolve specifier.value with
      | error reason =>
          simp only [follow, hresolve, Except.error.injEq] at h
          subst h
          exact ⟨specifier, List.mem_cons_self, .missing reason⟩
      | ok result =>
          obtain ⟨position?, after⟩ := result
          rw [follow_cons_of_ok hresolve] at h
          cases hfailure : specifier.value.failure? position? arguments with
          | some found =>
              rw [hfailure] at h
              cases h
              obtain ⟨position, -, hproblem⟩ := Option.bind_eq_some_iff.mp hfailure
              exact ⟨specifier, List.mem_cons_self, Specifier.causedBy_of_problem? hproblem⟩
          | none =>
              rw [hfailure] at h
              obtain ⟨cause, hmem, hcaused⟩ := ih h
              exact ⟨cause, List.mem_cons_of_mem _ hmem, hcaused⟩

end Tracker

/-! ## Checking -/

section

variable {format : String} {segments : List (Located Segment)} {arguments : List Signature}
  {problem : Located Problem}

/-- A call fails on an argument if and only if following its specifiers does. -/
theorem check_eq_error_iff (hparse : parse format = .ok segments)
    (hargument : problem.value.IsOfArgument) :
    check format arguments = .error problem ↔
      Tracker.start.follow arguments (Segment.specifiers segments) = .error problem := by
  cases hfollow : Tracker.start.follow arguments (Segment.specifiers segments) with
  | error found => simp [check, hparse, hfollow]
  | ok last =>
      have hextra : problem ≠ ⟨.extra arguments.length last.maxReferenced, .whole format⟩ := by
        rintro rfl
        exact hargument
      by_cases hlt : last.maxReferenced.toNat < arguments.length
      · simpa [check, hparse, hfollow, hlt] using hextra.symm
      · simp [check, hparse, hfollow, hlt]

/-- Specifiers are followed to the end in a call that passes, and in one with arguments left
over. -/
theorem exists_follow_of_check (hparse : parse format = .ok segments)
    (h : ∀ problem, check format arguments = .error problem → ¬problem.value.IsOfArgument) :
    ∃ last, Tracker.start.follow arguments (Segment.specifiers segments) = .ok last := by
  cases hfollow : Tracker.start.follow arguments (Segment.specifiers segments) with
  | ok last => exact ⟨last, rfl⟩
  | error problem =>
      obtain ⟨specifier, -, hcaused⟩ := Tracker.exists_causedBy_of_follow hfollow
      have hargument := hcaused.isOfArgument
      exact absurd hargument (h problem ((check_eq_error_iff hparse hargument).mpr hfollow))

end

/-- The specifiers of two texts together are those of the first and, moved, those of the
second. A failure of the first on an argument is the failure of both together. If there is
none, every failure on an argument stands behind the first text and is caused by a specifier
of the second. -/
theorem front_failure_is_final (a b : String) (segments others : List (Located Segment))
    (arguments : List Signature) (ha : parse a = .ok segments) (hb : parse b = .ok others) :
    ∃ together, parse (a ++ b) = .ok together ∧
      Segment.specifiers together = Segment.specifiers segments ++
        (Segment.specifiers others).map (·.shift (Text.byteLength a.toList)) ∧
      (∀ problem, check a arguments = .error problem → problem.value.IsOfArgument →
        check (a ++ b) arguments = .error problem) ∧
      ((check a arguments = .ok () ∨ ∃ supplied referenced span,
          check a arguments = .error ⟨.extra supplied referenced, span⟩) →
        ∀ problem, check (a ++ b) arguments = .error problem → problem.value.IsOfArgument →
          Text.byteLength a.toList ≤ problem.span.start ∧
          ∃ specifier ∈ Segment.specifiers others,
            CausedBy arguments (specifier.shift (Text.byteLength a.toList)) problem) := by
  obtain ⟨together, htogether, hspecifiers⟩ := exists_parse_append ha hb
  refine ⟨together, htogether, hspecifiers, ?_, ?_⟩
  · intro problem hcheck hargument
    have hfollow := (check_eq_error_iff ha hargument).mp hcheck
    apply (check_eq_error_iff htogether hargument).mpr
    rw [hspecifiers, Tracker.follow_append, hfollow]
  · intro hpasses problem hcheck hargument
    have hfront : ∀ found, check a arguments = .error found → ¬found.value.IsOfArgument := by
      intro found hfound
      rcases hpasses with hok | ⟨supplied, referenced, span, hextra⟩
      · rw [hok] at hfound
        cases hfound
      · rw [hextra] at hfound
        cases hfound
        exact id
    obtain ⟨last, hlast⟩ := exists_follow_of_check ha hfront
    have hfollow := (check_eq_error_iff htogether hargument).mp hcheck
    rw [hspecifiers, Tracker.follow_append, hlast] at hfollow
    obtain ⟨moved, hmoved, hcaused⟩ := Tracker.exists_causedBy_of_follow hfollow
    obtain ⟨specifier, hmem, rfl⟩ := List.mem_map.mp hmoved
    refine ⟨?_, specifier, hmem, hcaused⟩
    rw [hcaused.span_eq]
    exact Nat.le_add_left _ _

/-- The plain text between the specifiers is cut in two. With one argument the first specifier
finds none to read; with two it passes, and the relative one behind the cut rejects what the
first one accepted. -/
theorem front_failure_is_final_cut :
    check ("é%2$sa" ++ "b%<d") [⟨"I"⟩] = check "é%2$sa" [⟨"I"⟩] ∧
      ∃ problem, check ("é%2$sa" ++ "b%<d") [⟨"I"⟩, ⟨"Z"⟩] = .error problem ∧
        7 ≤ problem.span.start := by
  have ha : parse "é%2$sa" = .ok [⟨.literal "é", 0, 2⟩,
      ⟨.specifier ⟨.explicit 2, .empty, none, none, .string, false⟩, 2, 6⟩,
      ⟨.literal "a", 6, 7⟩] := by
    decide +kernel
  have hb : parse "b%<d" = .ok [⟨.literal "b", 0, 1⟩,
      ⟨.specifier ⟨.relative, .empty, none, none, .decimal, false⟩, 1, 4⟩] := by
    decide +kernel
  have hshort : check "é%2$sa" [⟨"I"⟩] =
      .error ⟨.missing (.outOfRange 2 1), 2, 6⟩ := by
    decide +kernel
  have hpasses : check "é%2$sa" [⟨"I"⟩, ⟨"Z"⟩] = .ok () := by decide +kernel
  have hlong : check ("é%2$sa" ++ "b%<d") [⟨"I"⟩, ⟨"Z"⟩] =
      .error ⟨.mismatch ⟨.relative, .empty, none, none, .decimal, false⟩ 2 .integral ⟨"Z"⟩
        .incompatible, 8, 11⟩ := by
    decide +kernel
  obtain ⟨-, -, -, hfinal, -⟩ := front_failure_is_final _ _ _ _ [⟨"I"⟩] ha hb
  obtain ⟨-, -, -, -, hbehind⟩ := front_failure_is_final _ _ _ _ [⟨"I"⟩, ⟨"Z"⟩] ha hb
  refine ⟨(hfinal _ hshort trivial).trans hshort.symm, _, hlong, ?_⟩
  exact (hbehind (.inl hpasses) _ hlong trivial).1

end FormatCheck
