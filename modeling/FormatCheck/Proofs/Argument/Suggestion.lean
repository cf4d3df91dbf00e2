import FormatCheck.Format.Rules
import FormatCheck.Proofs.Argument.Acceptance

/-! # Suggested conversions

A conversion is suggested for every argument that some conversion accepts. It accepts the
argument, takes no more than a width and left justification, and it is as specific as the
families allow. -/

namespace FormatCheck

/-- A conversion reads an argument and accepts it. -/
def Conversion.Accepts (conversion : Conversion) (signature : Signature) : Prop :=
  ∃ family, conversion.family? = some family ∧ signature.mismatch? family = none

/-- What can be relied on when a conversion is suggested for an argument. -/
structure Suits (conversion : Conversion) (signature : Signature) : Prop where
  reads : conversion.readsArgument = true
  accepts : conversion.Accepts signature
  plain : ∀ index width,
    Specifier.fault? ⟨index, .empty, width, none, conversion, false⟩ = none
  justified : ∀ index width,
    Specifier.fault? ⟨index, .ofList [.leftJustify], some width, none, conversion, false⟩ = none
  string_iff : conversion = .string ↔
    ∀ family, family ≠ .general → signature.mismatch? family ≠ none

/-! ## Choosing by groups -/

/-- The most specific conversion for a type accepts it. -/
theorem exists_family_forGroups (scalar : Scalar) :
    ∃ family, (Conversion.forGroups scalar.groups).family? = some family ∧
      family.accepts scalar = true := by
  unfold Conversion.forGroups
  split_ifs with hinteger hfloat hcharacter hboolean hdate
  · exact ⟨.integral, rfl, (Family.accepts_iff rfl).mpr (by simpa using hinteger)⟩
  · exact ⟨.floating, rfl, (Family.accepts_iff rfl).mpr (by simpa using hfloat)⟩
  · refine ⟨.character, rfl, (Family.accepts_iff rfl).mpr ⟨.character, by simp, ?_⟩⟩
    simpa using hcharacter
  · exact ⟨.boolean, rfl, (Family.accepts_iff rfl).mpr (by simpa using hboolean)⟩
  · have hgroups : .calendar ∈ scalar.groups ∨ .date ∈ scalar.groups := by simpa using hdate
    rcases hgroups with hmem | hmem
    · exact ⟨.dateTime, rfl, (Family.accepts_iff rfl).mpr ⟨.calendar, by simp, hmem⟩⟩
    · exact ⟨.dateTime, rfl, (Family.accepts_iff rfl).mpr ⟨.date, by simp, hmem⟩⟩
  · exact ⟨.general, rfl, rfl⟩

/-- Of the conversions for all arguments only `%s` is chosen. -/
theorem forGroups_of_general {groups : List Group}
    (h : (Conversion.forGroups groups).family? = some .general) :
    Conversion.forGroups groups = .string := by
  unfold Conversion.forGroups at h ⊢
  split_ifs at h ⊢
  -- The choices before the last one have families of their own.
  any_goals cases h
  rfl

/-- Two groups play no part in the choice. -/
theorem forGroups_eq_string {groups : List Group} (h : Conversion.forGroups groups = .string) :
    ∀ group ∈ groups, group = .charCode ∨ group = .epochMillis := by
  unfold Conversion.forGroups at h
  split_ifs at h with hinteger hfloat hcharacter hboolean hdate
  intro group hmem
  simp only [Bool.or_eq_true, List.contains_iff_mem, not_or] at *
  cases group with
  | charCode => exact .inl rfl
  | epochMillis => exact .inr rfl
  | _ => simp_all

/-- The types in these two groups are integers as well. -/
theorem Group.boxedInteger_mem {className : String} {group : Group} (h : group ∈ ofClass className)
    (hgroup : group = .charCode ∨ group = .epochMillis) : .boxedInteger ∈ ofClass className := by
  have hclasses : ∀ entry ∈ classes, charCode ∈ entry.2 ∨ epochMillis ∈ entry.2 →
      boxedInteger ∈ entry.2 := by
    decide +kernel
  obtain ⟨groups, hmem, hfound⟩ := mem_ofClass_iff.mp h
  refine mem_ofClass_iff.mpr ⟨groups, hmem, hclasses _ hmem ?_⟩
  rcases hgroup with rfl | rfl
  · exact .inl hfound
  · exact .inr hfound

/-- `%s` is chosen exactly for the types that no other family accepts. -/
theorem forGroups_eq_string_iff {scalar : Scalar} :
    Conversion.forGroups scalar.groups = .string ↔
      ∀ family : Family, family ≠ .general → ¬family.accepts scalar = true := by
  constructor
  · intro hstring family hfamily haccepts
    obtain ⟨groups, hgroups⟩ := Family.exists_groups hfamily
    obtain ⟨group, -, hmem⟩ := (Family.accepts_iff hgroups).mp haccepts
    have hinteger := Group.boxedInteger_mem hmem (forGroups_eq_string hstring group hmem)
    rcases forGroups_eq_string hstring _ hinteger with hgroup | hgroup
    · cases hgroup
    · cases hgroup
  · intro h
    obtain ⟨family, hfamily, haccepts⟩ := exists_family_forGroups scalar
    by_cases hgeneral : family = .general
    · exact forGroups_of_general (hgeneral ▸ hfamily)
    · exact absurd haccepts (h family hgeneral)

/-! ## Specifiers with a suggested conversion -/

theorem Conversion.not_rejects_leftJustify {conversion : Conversion}
    (h : conversion.readsArgument = true) : conversion.rejects .leftJustify = false := by
  cases conversion with
  | percent | lineSeparator => cases h
  | _ => rfl

/-- An index, a width and left justification beside it suit every conversion that reads an
argument. -/
theorem Specifier.fault?_of_justified {conversion : Conversion} {justify : Bool}
    {width : Option UInt32} (hreads : conversion.readsArgument = true)
    (hwidth : justify = true → width.isSome = true) (index : Index) :
    fault? ⟨index, { leftJustify := justify }, width, none, conversion, false⟩ = none := by
  have hline : conversion ≠ .lineSeparator := by
    rintro rfl
    cases hreads
  have hflags : (Flags.toList { leftJustify := justify }).find? conversion.rejects = none := by
    rw [List.find?_eq_none]
    intro flag hmem
    cases flag with
    | leftJustify => simp [Conversion.not_rejects_leftJustify hreads]
    | _ => simp [Flags.contains] at hmem
  cases width with
  | none =>
      obtain rfl : justify = false := by simpa using hwidth
      simp [fault?, hreads, hflags]
  | some width => simp [fault?, hreads, hflags, hline]

/-! ## Suggestions -/

namespace Signature

theorem suggestion?_of_type? {signature : Signature} {scalar : Scalar}
    (h : signature.type? = some ⟨scalar, 0⟩) :
    signature.suggestion? = some (.forGroups scalar.groups) := by
  rw [suggestion?, h]
  rfl

/-- What is not the signature of a single value is refused by every family, whatever its type
is, and has no suggestion. -/
theorem exists_scalar_or_refused (signature : Signature) :
    (∃ scalar, signature.type? = some ⟨scalar, 0⟩) ∨
      signature.suggestion? = none ∧
        ∀ family, ∃ reason, signature.mismatch? family = some reason ∧ reason ≠ .incompatible := by
  cases htype : signature.type? with
  | none =>
      refine .inr ⟨by rw [suggestion?, htype]; rfl, ?_⟩
      intro family
      exact ⟨.invalid, by simp [mismatch?, htype], by decide⟩
  | some type =>
      obtain ⟨scalar, dimensions⟩ := type
      cases dimensions with
      | zero => exact .inl ⟨scalar, rfl⟩
      | succ dimensions =>
          refine .inr ⟨by rw [suggestion?, htype]; rfl, ?_⟩
          intro family
          exact ⟨.array, by simp [mismatch?, htype, DeclaredType.isArray], by decide⟩

end Signature

/-- An argument of the wrong type has a suggestion that accepts it. -/
theorem exists_suggestion {actual : Signature} {expected : Family}
    (h : actual.mismatch? expected = some .incompatible) :
    ∃ suggested family, actual.suggestion? = some suggested ∧
      suggested.family? = some family ∧ actual.mismatch? family = none := by
  rcases actual.exists_scalar_or_refused with ⟨scalar, htype⟩ | ⟨-, hrefused⟩
  · obtain ⟨family, hfamily, haccepts⟩ := exists_family_forGroups scalar
    refine ⟨_, family, Signature.suggestion?_of_type? htype, hfamily, ?_⟩
    rw [Signature.mismatch?_of_type? htype, if_pos haccepts]
  · obtain ⟨reason, hreason, hne⟩ := hrefused expected
    cases hreason.symm.trans h
    exact absurd rfl hne

theorem Signature.mismatch?_ne_none_iff {signature : Signature} {scalar : Scalar}
    (h : signature.type? = some ⟨scalar, 0⟩) (family : Family) :
    signature.mismatch? family ≠ none ↔ ¬family.accepts scalar = true := by
  rw [mismatch?_of_type? h]
  split_ifs with haccepts <;> simp [haccepts]

theorem suits_forGroups {signature : Signature} {scalar : Scalar}
    (h : signature.type? = some ⟨scalar, 0⟩) : Suits (.forGroups scalar.groups) signature := by
  obtain ⟨family, hfamily, haccepts⟩ := exists_family_forGroups scalar
  have hreads : (Conversion.forGroups scalar.groups).readsArgument = true := by
    rw [← Conversion.isSome_family?, hfamily, Option.isSome_some]
  refine ⟨hreads, ⟨family, hfamily, ?_⟩, ?_, ?_, ?_⟩
  · rw [Signature.mismatch?_of_type? h, if_pos haccepts]
  · intro index width
    exact Specifier.fault?_of_justified hreads (fun hjustify => by cases hjustify) index
  · intro index width
    exact Specifier.fault?_of_justified hreads (fun _ => rfl) index
  · rw [forGroups_eq_string_iff]
    simp only [Signature.mismatch?_ne_none_iff h]

/-- A conversion is suggested exactly where some conversion, and so some family, accepts the
argument, and the one that is suggested suits it. -/
theorem suggestion_suits (signature : Signature) :
    (signature.suggestion? = none ↔
        ∀ conversion : Conversion, ¬conversion.Accepts signature) ∧
      (signature.suggestion? = none ↔ ∀ family, signature.mismatch? family ≠ none) ∧
      ∀ conversion, signature.suggestion? = some conversion → Suits conversion signature := by
  rcases signature.exists_scalar_or_refused with ⟨scalar, htype⟩ | ⟨hnone, hrefused⟩
  · have hsuits := suits_forGroups htype
    have hgeneral : signature.mismatch? .general = none := Signature.mismatch?_of_type? htype .general
    rw [Signature.suggestion?_of_type? htype]
    refine ⟨?_, ?_, ?_⟩
    · exact iff_of_false (by simp) fun h => h _ hsuits.accepts
    · exact iff_of_false (by simp) fun h => h .general hgeneral
    · intro conversion hconversion
      obtain rfl := Option.some.inj hconversion
      exact hsuits
  · have hrejects : ∀ family, signature.mismatch? family ≠ none := by
      intro family haccepts
      obtain ⟨reason, hreason, -⟩ := hrefused family
      rw [haccepts] at hreason
      cases hreason
    refine ⟨iff_of_true hnone ?_, iff_of_true hnone hrejects, ?_⟩
    · rintro conversion ⟨family, -, haccepts⟩
      exact hrejects family haccepts
    · intro conversion hconversion
      rw [hnone] at hconversion
      cases hconversion

/-- A date that is no number is printed as date and time, and `%s` is left to other types. -/
theorem suggestion_suits_timestamp :
    Signature.suggestion? ⟨"Ljava/sql/Timestamp;"⟩ = some (.dateTime .dateAndTime) ∧
      Suits (.dateTime .dateAndTime) ⟨"Ljava/sql/Timestamp;"⟩ := by
  have hsuggestion : Signature.suggestion? ⟨"Ljava/sql/Timestamp;"⟩ =
      some (.dateTime .dateAndTime) := by
    decide +kernel
  exact ⟨hsuggestion, (suggestion_suits _).2.2 _ hsuggestion⟩

end FormatCheck
