import FormatCheck.Argument.Family
import FormatCheck.Proofs.Argument.Classification

/-! # The table of accepted types

Each family has a row of types that it accepts, written out without regard to groups. The
verdict on a signature is that of the grammar and the table, whatever the signature is. -/

namespace FormatCheck

/-! ## The table -/

namespace Family

/-- The primitive types in the row of a family. The general family needs no row. -/
def primitives : Family → List Primitive
  | integral => [.byte, .short, .int, .long]
  | floating => [.float, .double]
  | hexFloating => [.float, .double]
  | character => [.byte, .short, .int, .char]
  | boolean => [.boolean]
  | dateTime => [.long]
  | general => []

/-- The classes in the row of a family: the wrappers of its primitive types, then others. -/
def classNames : Family → List String
  | integral => ["java/lang/Byte", "java/lang/Short", "java/lang/Integer", "java/lang/Long",
      "java/math/BigInteger"]
  | floating => ["java/lang/Float", "java/lang/Double", "java/math/BigDecimal"]
  | hexFloating => ["java/lang/Float", "java/lang/Double"]
  | character => ["java/lang/Byte", "java/lang/Short", "java/lang/Integer", "java/lang/Character"]
  | boolean => ["java/lang/Boolean"]
  | dateTime => ["java/lang/Long", "java/util/Calendar", "java/util/GregorianCalendar",
      "java/util/Date", "java/sql/Date", "java/sql/Time", "java/sql/Timestamp"]
  | general => []

def row (family : Family) : List Scalar :=
  family.primitives.map .primitive ++ family.classNames.map .object

/-- The signature of a type stands in the row of a family. -/
def Lists (family : Family) (signature : Signature) : Prop :=
  ∃ scalar ∈ family.row, scalar.signatureChars = signature.text.toList

end Family

/-- The signature is written as brackets and an element. -/
structure Signature.WrittenAs (signature : Signature) (dimensions : Nat) (element : List Char) :
    Prop where
  dimensions_le : dimensions ≤ 2 ^ 32 - 1
  isElement : IsElement element
  text_eq : signature.text.toList = List.replicate dimensions '[' ++ element

/-- Why a family rejects a signature by the grammar and the table, if it does. -/
inductive Judges (family : Family) (signature : Signature) : Option Mismatch → Prop where
  | malformed (h : ∀ dimensions element, ¬signature.WrittenAs dimensions element) :
      Judges family signature (some .invalid)
  | array {dimensions : Nat} {element : List Char} (h : signature.WrittenAs dimensions element)
      (hpos : 0 < dimensions) : Judges family signature (some .array)
  | listed (h : Signature.IsElement signature.text.toList)
      (hrow : family = .general ∨ family.Lists signature) : Judges family signature none
  | unlisted (h : Signature.IsElement signature.text.toList) (hfamily : family ≠ .general)
      (hrow : ¬family.Lists signature) : Judges family signature (some .incompatible)

/-! ## Groups and rows -/

namespace Group

/-- No class stands twice in the list, so looking it up finds its groups. -/
theorem lookup_classes : ∀ entry ∈ classes, classes.lookup entry.1 = some entry.2 := by
  decide +kernel

theorem mem_ofClass_iff {group : Group} {className : String} :
    group ∈ ofClass className ↔ ∃ groups, (className, groups) ∈ classes ∧ group ∈ groups := by
  constructor
  · intro h
    cases hlookup : classes.lookup className with
    | none => simp [ofClass, hlookup] at h
    | some groups =>
        obtain ⟨before, behind, hclasses, -⟩ := List.lookup_eq_some_iff.mp hlookup
        refine ⟨groups, by simp [hclasses], ?_⟩
        simpa [ofClass, hlookup] using h
  · rintro ⟨groups, hmem, h⟩
    simpa [ofClass, lookup_classes _ hmem] using h

end Group

namespace Family

theorem accepts_iff {family : Family} {groups : List Group} {scalar : Scalar}
    (h : family.groups? = some groups) :
    family.accepts scalar = true ↔ ∃ group ∈ groups, group ∈ scalar.groups := by
  simp [accepts, h, and_comm]

/-- The classes of a row are those with a group that the family accepts. -/
theorem classNames_eq {family : Family} {groups : List Group} (h : family.groups? = some groups) :
    family.classNames =
      (Group.classes.filter fun entry => entry.2.any groups.contains).map Prod.fst := by
  cases family <;> cases h <;> rfl

theorem exists_groups {family : Family} (h : family ≠ general) :
    ∃ groups, family.groups? = some groups := by
  cases family with
  | general => exact absurd rfl h
  | _ => exact ⟨_, rfl⟩

theorem accepts_object_iff {family : Family} (h : family ≠ general) (className : String) :
    family.accepts (.object className) = true ↔ className ∈ family.classNames := by
  obtain ⟨groups, hgroups⟩ := exists_groups h
  rw [accepts_iff hgroups, classNames_eq hgroups]
  simp only [Scalar.groups, Scalar.className, Group.mem_ofClass_iff, List.mem_map, List.mem_filter,
    List.any_eq_true, List.contains_iff_mem]
  constructor
  · rintro ⟨group, haccepted, found, hmem, hgroup⟩
    exact ⟨(className, found), ⟨hmem, group, hgroup, haccepted⟩, rfl⟩
  · rintro ⟨⟨_, found⟩, ⟨hmem, group, hgroup, haccepted⟩, rfl⟩
    exact ⟨group, haccepted, found, hmem, hgroup⟩

theorem wrapper_mem_classNames_iff (family : Family) (primitive : Primitive) :
    primitive.wrapper ∈ family.classNames ↔ primitive ∈ family.primitives := by
  cases family <;> cases primitive <;> decide

/-- A family with a row accepts the types in it and no others. -/
theorem accepts_iff_mem_row {family : Family} (h : family ≠ general) (scalar : Scalar) :
    family.accepts scalar = true ↔ scalar ∈ family.row := by
  cases scalar with
  | primitive primitive =>
      have hwrapper : family.accepts (.primitive primitive) =
          family.accepts (.object primitive.wrapper) := rfl
      rw [hwrapper, accepts_object_iff h, wrapper_mem_classNames_iff]
      simp [row]
  | object className =>
      rw [accepts_object_iff h]
      simp [row]

end Family

/-! ## Verdicts -/

namespace Signature

theorem WrittenAs.exists_type? {signature : Signature} {dimensions : Nat} {element : List Char}
    (h : signature.WrittenAs dimensions element) :
    ∃ scalar, signature.type? = some ⟨scalar, dimensions⟩ := by
  obtain ⟨scalar, htype, -⟩ :=
    exists_type?_of_isElement (Nat.lt_succ_of_le h.dimensions_le) h.isElement h.text_eq
  exact ⟨scalar, htype⟩

theorem writtenAs_of_type? {signature : Signature} {type : DeclaredType}
    (h : signature.type? = some type) :
    signature.WrittenAs type.dimensions type.element.signatureChars := by
  obtain ⟨hlimit, helement, htext⟩ := type?_eq_some_iff.mp h
  exact ⟨Nat.le_of_lt_succ hlimit, helement, htext.symm⟩

/-- What is not an array is written as an element alone. -/
theorem exists_scalar_iff {signature : Signature} :
    (∃ scalar, signature.type? = some ⟨scalar, 0⟩) ↔ IsElement signature.text.toList := by
  constructor
  · rintro ⟨scalar, htype⟩
    obtain ⟨-, helement, htext⟩ := type?_eq_some_iff.mp htype
    exact htext ▸ helement
  · intro h
    have hwritten : signature.WrittenAs 0 signature.text.toList := ⟨Nat.zero_le _, h, rfl⟩
    exact hwritten.exists_type?

theorem mismatch?_of_type? {signature : Signature} {scalar : Scalar}
    (h : signature.type? = some ⟨scalar, 0⟩) (family : Family) :
    signature.mismatch? family =
      if family.accepts scalar then none else some .incompatible := by
  simp [mismatch?, h, DeclaredType.isArray]

theorem mem_row_iff {signature : Signature} {scalar : Scalar}
    (h : signature.type? = some ⟨scalar, 0⟩) (family : Family) :
    scalar ∈ family.row ↔ family.Lists signature := by
  obtain ⟨-, helement, htext⟩ := type?_eq_some_iff.mp h
  constructor
  · intro hmem
    exact ⟨scalar, hmem, htext⟩
  · rintro ⟨other, hmem, hother⟩
    have hsame : other.signatureChars = scalar.signatureChars := hother.trans htext.symm
    obtain rfl : scalar = other := Option.some.inj
      ((scalar?_eq_some_iff.mpr ⟨helement, rfl⟩).symm.trans
        (scalar?_eq_some_iff.mpr ⟨helement, hsame⟩))
    exact hmem

/-- The types that a family accepts, read off their signatures. -/
theorem accepts_iff_lists {signature : Signature} {scalar : Scalar}
    (h : signature.type? = some ⟨scalar, 0⟩) (family : Family) :
    family.accepts scalar = true ↔ family = .general ∨ family.Lists signature := by
  by_cases hfamily : family = .general
  · subst hfamily
    exact iff_of_true rfl (.inl rfl)
  · rw [Family.accepts_iff_mem_row hfamily, mem_row_iff h, or_iff_right hfamily]

end Signature

theorem Judges.mismatch?_eq {family : Family} {signature : Signature} {verdict : Option Mismatch}
    (h : Judges family signature verdict) : signature.mismatch? family = verdict := by
  cases h with
  | malformed h =>
      cases htype : signature.type? with
      | none => simp [Signature.mismatch?, htype]
      | some type => exact absurd (Signature.writtenAs_of_type? htype) (h _ _)
  | array h hpos =>
      obtain ⟨scalar, htype⟩ := h.exists_type?
      simp [Signature.mismatch?, htype, DeclaredType.isArray, Nat.ne_of_gt hpos]
  | listed h hrow =>
      obtain ⟨scalar, htype⟩ := Signature.exists_scalar_iff.mpr h
      have haccepts := (Signature.accepts_iff_lists htype family).mpr hrow
      rw [Signature.mismatch?_of_type? htype, if_pos haccepts]
  | unlisted h hfamily hrow =>
      obtain ⟨scalar, htype⟩ := Signature.exists_scalar_iff.mpr h
      have haccepts := mt (Signature.accepts_iff_lists htype family).mp (not_or.mpr ⟨hfamily, hrow⟩)
      rw [Signature.mismatch?_of_type? htype, if_neg haccepts]

theorem judges_mismatch? (family : Family) (signature : Signature) :
    Judges family signature (signature.mismatch? family) := by
  cases htype : signature.type? with
  | none =>
      have hnot : ∀ dimensions element, ¬signature.WrittenAs dimensions element := by
        intro dimensions element h
        obtain ⟨scalar, hsome⟩ := h.exists_type?
        rw [htype] at hsome
        cases hsome
      rw [Signature.mismatch?, htype]
      exact .malformed hnot
  | some type =>
      obtain ⟨scalar, dimensions⟩ := type
      by_cases hpos : 0 < dimensions
      · rw [(Judges.array (Signature.writtenAs_of_type? htype) hpos).mismatch?_eq]
        exact .array (Signature.writtenAs_of_type? htype) hpos
      · obtain rfl : dimensions = 0 := by omega
        have helement := Signature.exists_scalar_iff.mp ⟨scalar, htype⟩
        have haccepts := Signature.accepts_iff_lists htype family
        rw [Signature.mismatch?_of_type? htype]
        split_ifs with h
        · exact .listed helement (haccepts.mp h)
        · obtain ⟨hfamily, hrow⟩ := not_or.mp (mt haccepts.mpr h)
          exact .unlisted helement hfamily hrow

/-- Every verdict is that of the grammar and the table. -/
theorem mismatch_iff_judges (signature : Signature) (family : Family)
    (verdict : Option Mismatch) :
    signature.mismatch? family = verdict ↔ Judges family signature verdict := by
  constructor
  · rintro rfl
    exact judges_mismatch? family signature
  · exact Judges.mismatch?_eq

end FormatCheck
