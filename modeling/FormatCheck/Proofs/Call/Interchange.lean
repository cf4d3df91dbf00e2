import FormatCheck.Proofs.Argument.Suggestion
import FormatCheck.Proofs.Call.Rewording
import FormatCheck.Report.Diagnosis
import Mathlib.Data.List.Forall2

/-! # Arguments that a check cannot tell apart

Of the arguments a check reads only those that a specifier refers to, and of each of them
only whether the family of the conversion accepts it. Two lists with the same verdicts
pass and fail alike; only the argument that is shown as rejected can differ. -/

namespace FormatCheck

/-! ## Arguments that are read -/

/-- The specifier is one of a sequence, and resolves to a position there. -/
def Tracker.Resolves (tracker : Tracker) (specifiers : List Specifier) (specifier : Specifier)
    (position : UInt32) : Prop :=
  (specifier, .ok (some position)) ∈ specifiers.zip (tracker.resolveAll specifiers)

/-- A specifier of a format text reads the argument at a position, counted from one. The
specifiers resolve one after the other, also behind failures. -/
def Consults (format : String) (specifier : Specifier) (position : UInt32) : Prop :=
  ∃ segments, parse format = .ok segments ∧
    Tracker.start.Resolves (Segment.values segments) specifier position

namespace Tracker

theorem resolves_cons_iff {tracker : Tracker} {first specifier : Specifier}
    {rest : List Specifier} {position : UInt32} :
    tracker.Resolves (first :: rest) specifier position ↔
      (specifier = first ∧ ∃ after, tracker.resolve first = .ok (some position, after)) ∨
        (tracker.advance first).Resolves rest specifier position := by
  cases hresolve : tracker.resolve first with
  | error reason => simp [Resolves, resolveAll, hresolve, Except.map]
  | ok result =>
      obtain ⟨position?, after⟩ := result
      simp [Resolves, resolveAll, hresolve, Except.map, eq_comm]

/-- Positions start at one, unless a specifier names position zero. -/
theorem Resolves.ne_zero {tracker : Tracker} {specifiers : List Specifier}
    {specifier : Specifier} {position : UInt32}
    (h : tracker.Resolves specifiers specifier position) (hused : tracker.lastUsed ≠ some 0)
    (hindex : ∀ other ∈ specifiers, other.index ≠ .explicit 0) : position ≠ 0 := by
  induction specifiers generalizing tracker with
  | nil => simp [Resolves] at h
  | cons first rest ih =>
      obtain ⟨hfirst, hrest⟩ := List.forall_mem_cons.mp hindex
      rcases resolves_cons_iff.mp h with ⟨rfl, after, hresolve⟩ | hlater
      · exact (readsPosition_of_resolve hresolve).position_ne_zero hused hfirst
      · exact ih hlater (lastUsed_advance hused hfirst) hrest

end Tracker

theorem Consults.ne_zero {format : String} {specifier : Specifier} {position : UInt32}
    (h : Consults format specifier position) : position ≠ 0 := by
  obtain ⟨segments, hparse, hresolves⟩ := h
  apply hresolves.ne_zero (by decide)
  intro other hmem
  exact (writable_of_parse hparse hmem).index_ne_zero

/-! ## Looking at failures

What two runs show is compared through a view of their failures. -/

/-- What is wrong with a specifier at a position looks the same for both lists. -/
def SameProblem {β : Type} (view : Located Problem → β) (specifier : Specifier)
    (position : UInt32) (arguments others : List Signature) : Prop :=
  ∀ span, (specifier.problem? position others).map (fun problem => view ⟨problem, span⟩) =
    (specifier.problem? position arguments).map fun problem => view ⟨problem, span⟩

/-- One specifier: the lists have arguments in the same places, and only one that is
rejected can be told from the other. -/
theorem SameProblem.of_arguments {β : Type} {view : Located Problem → β} {specifier : Specifier}
    {position : UInt32} {arguments others : List Signature}
    (hlength : others.length = arguments.length)
    (hverdict : ∀ family argument other, specifier.conversion.family? = some family →
      arguments[position.toNat - 1]? = some argument → others[position.toNat - 1]? = some other →
      other.mismatch? family = argument.mismatch? family ∧
        ∀ reason span, argument.mismatch? family = some reason →
          view ⟨.mismatch specifier position family other reason, span⟩ =
            view ⟨.mismatch specifier position family argument reason, span⟩) :
    SameProblem view specifier position arguments others := by
  intro span
  cases hfamily : specifier.conversion.family? with
  | none => simp [Specifier.problem?, hfamily]
  | some family =>
      by_cases hlt : position.toNat - 1 < arguments.length
      · have hargument := List.getElem?_eq_getElem hlt
        have hother := List.getElem?_eq_getElem (hlength ▸ hlt)
        obtain ⟨hsame, hview⟩ := hverdict family _ _ hfamily hargument hother
        simp only [Specifier.problem?, hfamily, hargument, hother, hsame, Option.map_map]
        apply Option.map_congr
        intro reason hreason
        exact hview reason span hreason
      · have hargument : arguments[position.toNat - 1]? = none :=
          List.getElem?_eq_none (Nat.le_of_not_lt hlt)
        have hother : others[position.toNat - 1]? = none :=
          List.getElem?_eq_none (hlength ▸ Nat.le_of_not_lt hlt)
        simp only [Specifier.problem?, hfamily, hargument, hother, hlength]

/-- A whole run: following specifiers shows the same for both lists if each specifier does. -/
theorem Tracker.mapError_follow {β : Type} {view : Located Problem → β}
    {arguments others : List Signature} {tracker : Tracker}
    {specifiers : List (Located Specifier)}
    (h : ∀ specifier position, tracker.Resolves (specifiers.map Located.value) specifier position →
      SameProblem view specifier position arguments others) :
    (tracker.follow others specifiers).mapError view =
      (tracker.follow arguments specifiers).mapError view := by
  induction specifiers generalizing tracker with
  | nil => rfl
  | cons first rest ih =>
      have hlater : ∀ specifier position,
          (tracker.advance first.value).Resolves (rest.map Located.value) specifier position →
            SameProblem view specifier position arguments others :=
        fun specifier position hresolves =>
          h specifier position (resolves_cons_iff.mpr (.inr hresolves))
      cases hresolve : tracker.resolve first.value with
      | error reason => simp only [follow, hresolve]
      | ok result =>
          obtain ⟨position?, after⟩ := result
          rw [advance_of_ok hresolve] at hlater
          rw [follow_cons_of_ok hresolve, follow_cons_of_ok hresolve]
          cases position? with
          | none => exact ih hlater
          | some position =>
              have hfirst := h first.value position
                (resolves_cons_iff.mpr (.inl ⟨rfl, after, hresolve⟩)) first.span
              simp only [Specifier.failure?, Option.bind_some]
              cases hproblem : first.value.problem? position arguments with
              | none =>
                  rw [hproblem, Option.map_none, Option.map_eq_none_iff] at hfirst
                  rw [hfirst]
                  exact ih hlater
              | some problem =>
                  rw [hproblem, Option.map_some, Option.map_eq_some_iff] at hfirst
                  obtain ⟨other, hother, hview⟩ := hfirst
                  rw [hother]
                  exact congrArg Except.error hview

/-- Checking shows the same for both lists if each specifier of the text does. Whether
arguments are left over depends only on their number. -/
theorem mapError_check_of_sameProblem {β : Type} {view : Located Problem → β} {format : String}
    {arguments others : List Signature} (hlength : others.length = arguments.length)
    (h : ∀ specifier position, Consults format specifier position →
      SameProblem view specifier position arguments others) :
    (check format others).mapError view = (check format arguments).mapError view := by
  cases hparse : parse format with
  | error fault => simp only [check, hparse]
  | ok segments =>
      have hfollow : (Tracker.start.follow others (Segment.specifiers segments)).mapError view =
          (Tracker.start.follow arguments (Segment.specifiers segments)).mapError view := by
        apply Tracker.mapError_follow
        intro specifier position hresolves
        exact h specifier position ⟨segments, hparse, hresolves⟩
      rw [mapError_check_of_parse hparse, mapError_check_of_parse hparse, hfollow, hlength]

/-! ## The same verdicts -/

/-- The problem without the argument that was rejected. -/
def Problem.withoutActual : Problem → Problem
  | mismatch specifier position expected _ reason =>
      mismatch specifier position expected default reason
  | problem => problem

/-- All that a failure shows except the argument that was rejected. -/
def outline (problem : Located Problem) : Code × Located Problem :=
  (problem.value.code, problem.map Problem.withoutActual)

/-- Two lists of the same length in which every argument that a specifier of the text reads
gets the same verdict. -/
structure Agree (format : String) (arguments others : List Signature) : Prop where
  length_eq : others.length = arguments.length
  mismatch?_eq : ∀ specifier position family argument other,
    Consults format specifier position → specifier.conversion.family? = some family →
    arguments[position.toNat - 1]? = some argument → others[position.toNat - 1]? = some other →
    other.mismatch? family = argument.mismatch? family

theorem Agree.outline_check {format : String} {arguments others : List Signature}
    (h : Agree format arguments others) :
    (check format others).mapError outline = (check format arguments).mapError outline := by
  apply mapError_check_of_sameProblem h.length_eq
  intro specifier position hconsults
  apply SameProblem.of_arguments h.length_eq
  intro family argument other hfamily hargument hother
  refine ⟨h.mismatch?_eq specifier position family argument other hconsults hfamily hargument
    hother, ?_⟩
  -- The outline of a mismatch keeps its reason, and so the code.
  intro reason span _
  cases reason <;> rfl

theorem mapError_id {ε α : Type} (result : Except ε α) : result.mapError id = result := by
  cases result <;> rfl

/-- An argument that no specifier refers to can be any other. -/
theorem check_set {format : String} {place : Nat}
    (h : ∀ specifier position, Consults format specifier position → position.toNat ≠ place + 1)
    (arguments : List Signature) (signature : Signature) :
    check format (arguments.set place signature) = check format arguments := by
  have hview : (check format (arguments.set place signature)).mapError id =
      (check format arguments).mapError id := by
    apply mapError_check_of_sameProblem List.length_set
    intro specifier position hconsults
    apply SameProblem.of_arguments List.length_set
    intro family argument other _ hargument hother
    have hpos : position.toNat ≠ 0 := fun hzero => hconsults.ne_zero (UInt32.toNat_inj.mp hzero)
    have hplace : place ≠ position.toNat - 1 := by
      have hne := h specifier position hconsults
      omega
    rw [List.getElem?_set_ne hplace, hargument] at hother
    obtain rfl := Option.some.inj hother
    exact ⟨rfl, fun _ _ _ => rfl⟩
  simpa only [mapError_id] using hview

/-! ## Primitive types and their wrappers -/

namespace Signature

/-- The signature of the class that holds values of a primitive type. -/
def ofWrapper (primitive : Primitive) : Signature :=
  ⟨"L" ++ primitive.wrapper ++ ";"⟩

/-- The same signature, or that of a primitive type beside that of its wrapper. -/
inductive Boxed : Signature → Signature → Prop where
  | same (signature : Signature) : Boxed signature signature
  | box (primitive : Primitive) : Boxed (ofPrimitive primitive) (ofWrapper primitive)
  | unbox (primitive : Primitive) : Boxed (ofWrapper primitive) (ofPrimitive primitive)

theorem type?_ofPrimitive (primitive : Primitive) :
    (ofPrimitive primitive).type? = some ⟨.primitive primitive, 0⟩ := by
  cases primitive <;> decide

theorem type?_ofWrapper (primitive : Primitive) :
    (ofWrapper primitive).type? = some ⟨.object primitive.wrapper, 0⟩ := by
  cases primitive <;> decide +kernel

theorem groups_primitive (primitive : Primitive) :
    (Scalar.primitive primitive).groups = (Scalar.object primitive.wrapper).groups := rfl

/-- A primitive type is in the groups of its wrapper, so every family gives both the same
verdict. -/
theorem mismatch?_ofWrapper (primitive : Primitive) (family : Family) :
    (ofWrapper primitive).mismatch? family = (ofPrimitive primitive).mismatch? family := by
  have haccepts : family.accepts (.primitive primitive) =
      family.accepts (.object primitive.wrapper) := by
    rw [Family.accepts, Family.accepts, groups_primitive]
  rw [mismatch?_of_type? (type?_ofWrapper primitive),
    mismatch?_of_type? (type?_ofPrimitive primitive), haccepts]

theorem suggestion?_ofWrapper (primitive : Primitive) :
    (ofWrapper primitive).suggestion? = (ofPrimitive primitive).suggestion? := by
  rw [suggestion?_of_type? (type?_ofWrapper primitive),
    suggestion?_of_type? (type?_ofPrimitive primitive), groups_primitive]

theorem Boxed.mismatch?_eq {signature other : Signature} (h : signature.Boxed other)
    (family : Family) : other.mismatch? family = signature.mismatch? family := by
  cases h with
  | same => rfl
  | box primitive => exact mismatch?_ofWrapper primitive family
  | unbox primitive => exact (mismatch?_ofWrapper primitive family).symm

theorem Boxed.suggestion?_eq {signature other : Signature} (h : signature.Boxed other) :
    other.suggestion? = signature.suggestion? := by
  cases h with
  | same => rfl
  | box primitive => exact suggestion?_ofWrapper primitive
  | unbox primitive => exact (suggestion?_ofWrapper primitive).symm

end Signature

/-- The substitutions of each fix that is offered for a failure. -/
def substitutions (problem : Located Problem) : List (List Substitution) :=
  (problem.value.diagnose problem.span).fixes.map Fix.substitutions

/-- A fix takes only the suggested conversion from the argument. -/
theorem substitutions_of_suggestion? {actual other : Signature}
    (h : other.suggestion? = actual.suggestion?) (specifier : Specifier) (position : UInt32)
    (expected : Family) (reason : Mismatch) (span : Span) :
    substitutions ⟨.mismatch specifier position expected other reason, span⟩ =
      substitutions ⟨.mismatch specifier position expected actual reason, span⟩ := by
  cases reason with
  | array => rfl
  | incompatible | invalid =>
      simp only [substitutions, Problem.diagnose, Problem.fixes, Specifier.fix?, h]
      cases actual.suggestion? <;> simp [Fix.replace]

/-- Where primitive types and wrappers stand in for each other, checking shows the same
unless the view tells them apart. -/
theorem mapError_check_of_boxed {β : Type} {view : Located Problem → β} {format : String}
    {arguments others : List Signature} (h : List.Forall₂ Signature.Boxed arguments others)
    (hview : ∀ specifier position family argument other reason span, argument.Boxed other →
      view ⟨.mismatch specifier position family other reason, span⟩ =
        view ⟨.mismatch specifier position family argument reason, span⟩) :
    (check format others).mapError view = (check format arguments).mapError view := by
  have hlength : others.length = arguments.length := h.length_eq.symm
  apply mapError_check_of_sameProblem hlength
  intro specifier position _
  apply SameProblem.of_arguments hlength
  intro family argument other _ hargument hother
  obtain ⟨hlt, rfl⟩ := List.getElem?_eq_some_iff.mp hargument
  obtain ⟨hlt', rfl⟩ := List.getElem?_eq_some_iff.mp hother
  have hboxed := h.get hlt hlt'
  exact ⟨hboxed.mismatch?_eq family, fun reason span _ => hview _ _ _ _ _ reason span hboxed⟩

/-! ## What a check sees -/

/-- A check sees only the verdicts on the arguments that it reads. An argument that no
specifier refers to can be any other. A primitive type and its wrapper can stand in for each
other, and the fixes then change the text in the same way. -/
theorem check_sees_verdicts (format : String) (arguments others : List Signature) :
    (Agree format arguments others →
      (check format others).mapError outline = (check format arguments).mapError outline) ∧
    (∀ place signature,
      (∀ specifier position, Consults format specifier position → position.toNat ≠ place + 1) →
      check format (arguments.set place signature) = check format arguments) ∧
    (List.Forall₂ Signature.Boxed arguments others →
      (check format others).mapError outline = (check format arguments).mapError outline ∧
      (check format others).mapError substitutions =
        (check format arguments).mapError substitutions) := by
  refine ⟨Agree.outline_check, ?_, ?_⟩
  · intro place signature hunread
    exact check_set hunread arguments signature
  · intro hboxed
    constructor
    · apply mapError_check_of_boxed hboxed
      intro specifier position family argument other reason span _
      cases reason <;> rfl
    · apply mapError_check_of_boxed hboxed
      intro specifier position family argument other reason span hsame
      exact substitutions_of_suggestion? hsame.suggestion?_eq specifier position family reason span

/-- The text reads only the last of three arguments, which both times is fit for `s` and
unfit for `d`. -/
theorem check_sees_verdicts_last :
    (check "%3$s%<d" [⟨"["⟩, ⟨"J"⟩, ⟨"Ljava/util/List;"⟩]).mapError outline =
      (check "%3$s%<d" [⟨"I"⟩, ⟨"Z"⟩, ⟨"Ljava/lang/String;"⟩]).mapError outline ∧
    check "%3$s%<d" [⟨"I"⟩, ⟨"[[D"⟩, ⟨"Ljava/lang/String;"⟩] =
      check "%3$s%<d" [⟨"I"⟩, ⟨"Z"⟩, ⟨"Ljava/lang/String;"⟩] ∧
    (check "%3$s%<d" [⟨"Ljava/lang/Integer;"⟩, ⟨"Z"⟩, ⟨"Ljava/lang/Double;"⟩]).mapError
        substitutions =
      (check "%3$s%<d" [⟨"I"⟩, ⟨"Z"⟩, ⟨"D"⟩]).mapError substitutions := by
  have hconsults : ∀ specifier position, Consults "%3$s%<d" specifier position → position = 3 := by
    rintro specifier position ⟨segments, hparse, hresolves⟩
    have hpositions : positions "%3$s%<d" = .ok [.ok (some 3), .ok (some 3)] := by
      decide +kernel
    rw [positions, hparse] at hpositions
    have hresults : Tracker.start.resolveAll (Segment.values segments) =
        [.ok (some 3), .ok (some 3)] := Except.ok.inj hpositions
    have hmem := (List.of_mem_zip hresolves).2
    rw [hresults] at hmem
    simpa using hmem
  have hagree : Agree "%3$s%<d" [⟨"I"⟩, ⟨"Z"⟩, ⟨"Ljava/lang/String;"⟩]
      [⟨"["⟩, ⟨"J"⟩, ⟨"Ljava/util/List;"⟩] := by
    refine ⟨rfl, ?_⟩
    intro specifier position family argument other hread _ hargument hother
    cases hconsults specifier position hread
    cases hargument
    cases hother
    cases family <;> decide +kernel
  obtain ⟨hsame, hset, -⟩ := check_sees_verdicts "%3$s%<d"
    [⟨"I"⟩, ⟨"Z"⟩, ⟨"Ljava/lang/String;"⟩] [⟨"["⟩, ⟨"J"⟩, ⟨"Ljava/util/List;"⟩]
  obtain ⟨-, -, hboxed⟩ := check_sees_verdicts "%3$s%<d" [⟨"I"⟩, ⟨"Z"⟩, ⟨"D"⟩]
    [⟨"Ljava/lang/Integer;"⟩, ⟨"Z"⟩, ⟨"Ljava/lang/Double;"⟩]
  refine ⟨hsame hagree, ?_, (hboxed ?_).2⟩
  · apply hset 1 ⟨"[[D"⟩
    intro specifier position hread
    cases hconsults specifier position hread
    decide
  · exact .cons (.box .int) (.cons (.same _) (.cons (.box .double) .nil))

end FormatCheck
