import FormatCheck.Proofs.Report.Replacement
import Mathlib.Algebra.GroupWithZero.Nat

/-! # Substitutions made one after the other

A fix makes its substitutions from the last start to the first, each in the text that the ones
before it left. A snippet can therefore lengthen the text so much that a range from outside
the source is found in it. Only what starts in the range itself can do so. -/

namespace FormatCheck

open List

/-! ## The order of substitutions -/

theorem Fix.ordered_perm (fix : Fix) : fix.ordered ~ fix.substitutions :=
  List.mergeSort_perm _ _

theorem Fix.pairwise_ordered (fix : Fix) :
    fix.ordered.Pairwise fun later earlier => earlier.span.start ≤ later.span.start := by
  have hsorted := @List.pairwise_mergeSort Substitution
    (fun later earlier => decide (earlier.span.start ≤ later.span.start))
    (by intro a b c hab hbc; simp only [decide_eq_true_eq] at *; omega)
    (by intro a b; simp only [Bool.or_eq_true, decide_eq_true_eq]; omega) fix.substitutions
  exact hsorted.imp fun hle => by simpa using hle

namespace Substitution

/-- Makes substitutions in the order of the list, each in the text the last one left. -/
def makeAll? (substitutions : List Substitution) (cs : List Char) : Option (List Char) :=
  substitutions.foldlM (fun cs next => next.applyTo? cs) cs

@[simp] theorem makeAll?_nil (cs : List Char) : makeAll? [] cs = some cs := rfl

@[simp] theorem makeAll?_cons (substitution : Substitution) (substitutions : List Substitution)
    (cs : List Char) :
    makeAll? (substitution :: substitutions) cs =
      (substitution.applyTo? cs).bind (makeAll? substitutions) := rfl

end Substitution

theorem Fix.applyTo?_eq_makeAll? (fix : Fix) (source : String) :
    fix.applyTo? source = (Substitution.makeAll? fix.ordered source.toList).map String.ofList := by
  rw [applyTo?, Substitution.makeAll?]
  cases fix.ordered.foldlM (fun cs next => next.applyTo? cs) source.toList <;> rfl

/-! ## Ranges that overlap -/

namespace Substitution

/-- The bytes by which a substitution lengthens the text. -/
def growth (substitution : Substitution) : Nat :=
  Text.byteLength substitution.snippet.toList - substitution.span.length

/-- The bytes by which the other substitutions that start in a range lengthen the text. -/
def growthWithin (target : Substitution) (substitutions : List Substitution) : Nat :=
  ((substitutions.filter fun other =>
    other ≠ target && target.span.contains other.span.start).map growth).sum

theorem growthWithin_perm {substitutions others : List Substitution}
    (h : others ~ substitutions) (target : Substitution) :
    growthWithin target others = growthWithin target substitutions :=
  ((h.filter _).map growth).sum_nat

/-- A range that leaves the text stays outside as long as only what starts in it makes the text
longer, and not by enough. -/
theorem makeAll?_eq_none_of_outside {substitutions : List Substitution} {target : Substitution}
    (hsorted : substitutions.Pairwise fun later earlier => earlier.span.start ≤ later.span.start)
    (hmem : target ∈ substitutions) {cs : List Char}
    (h : Text.byteLength cs + growthWithin target substitutions < target.span.stop) :
    makeAll? substitutions cs = none := by
  induction substitutions generalizing cs with
  | nil => cases hmem
  | cons first others ih =>
      obtain ⟨hfirst, hothers⟩ := List.pairwise_cons.mp hsorted
      rw [makeAll?_cons]
      cases hfixed : first.applyTo? cs with
      | none => rfl
      | some fixed =>
          have hbytes := byteLength_of_applyTo? hfixed
          obtain ⟨front, middle, back, rfl, hspan, -⟩ := applyTo?_eq_some_iff.mp hfixed
          have hstop : first.span.stop ≤ Text.byteLength (front ++ (middle ++ back)) := by
            simp only [hspan, Text.byteLength_append]
            omega
          have hne : first ≠ target := by
            rintro rfl
            omega
          have htarget : target ∈ others :=
            (List.mem_cons.mp hmem).resolve_left (Ne.symm hne)
          -- What is made before the range is reached starts in it, for it starts in the text.
          have hwithin : target.span.contains first.span.start = true := by
            have hle := hfirst target htarget
            have hforward : first.span.start ≤ first.span.stop := by
              rw [hspan]
              exact Nat.le_add_right _ _
            simp only [Span.contains, Bool.and_eq_true, decide_eq_true_eq]
            omega
          have hgrowth : growthWithin target (first :: others) =
              first.growth + growthWithin target others := by
            simp [growthWithin, hne, hwithin]
          refine ih hothers htarget ?_
          rw [hgrowth, growth] at h
          omega

end Substitution

/-- A range outside the source is refused unless other substitutions that start in it lengthen
the text up to its end. -/
theorem outside_range_refused (fix : Fix) (source : String) (target : Substitution)
    (hmem : target ∈ fix.substitutions)
    (h : Text.byteLength source.toList + target.growthWithin fix.substitutions <
      target.span.stop) :
    fix.applyTo? source = none := by
  rw [← Substitution.growthWithin_perm fix.ordered_perm] at h
  rw [Fix.applyTo?_eq_makeAll?, Substitution.makeAll?_eq_none_of_outside fix.pairwise_ordered
    (fix.ordered_perm.mem_iff.mpr hmem) h, Option.map_none]

/-- What starts in the range may be replaced, as long as the text does not grow. -/
theorem outside_range_refused_overlapping :
    Fix.applyTo? ⟨"use a string", .tentative, [⟨⟨1, 2⟩, "x"⟩, ⟨⟨0, 4⟩, "%s"⟩]⟩ "%d" = none :=
  outside_range_refused _ "%d" ⟨⟨0, 4⟩, "%s"⟩ (by decide) (by decide)

/-- A flag and a width that are put into a specifier make it long enough for a range that
leaves the source. -/
theorem outside_range_found :
    (⟨⟨0, 4⟩, "%s"⟩ : Substitution) ∈ [⟨.point 1, "-8"⟩, ⟨⟨0, 4⟩, "%s"⟩] ∧
      Text.byteLength "%d".toList < (⟨0, 4⟩ : Span).stop ∧
      Fix.applyTo? ⟨"use a string", .tentative, [⟨.point 1, "-8"⟩, ⟨⟨0, 4⟩, "%s"⟩]⟩ "%d" =
        some "%s" := by
  refine ⟨by decide, by decide, ?_⟩
  have hordered : Fix.ordered
      ⟨"use a string", .tentative, [⟨.point 1, "-8"⟩, ⟨⟨0, 4⟩, "%s"⟩]⟩ =
        [⟨.point 1, "-8"⟩, ⟨⟨0, 4⟩, "%s"⟩] :=
    List.mergeSort_of_pairwise (by decide)
  have hflag : Substitution.applyTo? ⟨.point 1, "-8"⟩ "%d".toList = some "%-8d".toList :=
    Substitution.applyTo?_eq_some_iff.mpr ⟨['%'], [], ['d'], rfl, rfl, rfl⟩
  have hwhole : Substitution.applyTo? ⟨⟨0, 4⟩, "%s"⟩ "%-8d".toList = some "%s".toList :=
    Substitution.applyTo?_eq_some_iff.mpr ⟨[], "%-8d".toList, [], rfl, rfl, rfl⟩
  rw [Fix.applyTo?_eq_makeAll?, hordered, Substitution.makeAll?_cons, hflag, Option.bind_some,
    Substitution.makeAll?_cons, hwhole, Option.bind_some, Substitution.makeAll?_nil,
    Option.map_some, String.ofList_toList]

end FormatCheck
