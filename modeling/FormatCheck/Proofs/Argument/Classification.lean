import FormatCheck.Argument.Signature
import Mathlib.Algebra.GroupWithZero.Nat
import Mathlib.Data.List.TakeWhile

/-! # The grammar of signatures

A signature is written as brackets, one for each dimension, and an element: a letter for a
primitive type, or a class name between `L` and a semicolon. The rules do not invoke the
classification. It accepts exactly what they allow, and no two signatures stand for the
same type. -/

namespace FormatCheck

namespace Signature

/-! ## Class names -/

/-- A part of a class name between slashes. -/
structure IsNamePart (part : List Char) : Prop where
  nonempty : part ≠ []
  plain : ∀ c ∈ part, c ≠ '/' ∧ c ≠ ';' ∧ c ≠ '[' ∧ c ≠ '.'

theorem slash_notMem_of_mem_splitOn {cs part : List Char} (h : part ∈ cs.splitOn '/') :
    '/' ∉ part := by
  induction cs generalizing part with
  | nil =>
      obtain rfl : part = [] := by simpa using h
      exact List.not_mem_nil
  | cons c cs ih =>
      rw [List.splitOn_cons_eq_if_modifyHead] at h
      by_cases hc : c = '/'
      · rw [if_pos (by simpa using hc)] at h
        rcases List.mem_cons.mp h with rfl | h
        · exact List.not_mem_nil
        · exact ih h
      · rw [if_neg (by simpa using hc)] at h
        -- The character joins the first part.
        obtain ⟨first, others, hsplit⟩ := List.exists_cons_of_ne_nil (List.splitOn_ne_nil '/' cs)
        rw [hsplit, List.modifyHead_cons] at h
        rcases List.mem_cons.mp h with rfl | h
        · have hfirst : '/' ∉ first := ih (by simp [hsplit])
          simp [hfirst, Ne.symm hc]
        · exact ih (by simp [hsplit, h])

/-- Class names are parts with slashes between them. -/
theorem isClassName_iff {cs : List Char} :
    isClassName cs = true ↔
      ∃ parts : List (List Char), parts ≠ [] ∧ (∀ part ∈ parts, IsNamePart part) ∧
        ['/'].intercalate parts = cs := by
  have hpart : ∀ part : List Char, '/' ∉ part →
      ((!part.isEmpty && part.all fun c => c ≠ ';' && c ≠ '[' && c ≠ '.') = true ↔
        IsNamePart part) := by
    intro part hslash
    simp only [Bool.and_eq_true, Bool.not_eq_true', List.isEmpty_eq_false_iff, List.all_eq_true,
      decide_eq_true_eq]
    constructor
    · rintro ⟨hne, hplain⟩
      refine ⟨hne, ?_⟩
      intro c hc
      obtain ⟨⟨hsemicolon, hbracket⟩, hpoint⟩ := hplain c hc
      exact ⟨ne_of_mem_of_not_mem hc hslash, hsemicolon, hbracket, hpoint⟩
    · rintro ⟨hne, hplain⟩
      refine ⟨hne, ?_⟩
      intro c hc
      obtain ⟨-, hsemicolon, hbracket, hpoint⟩ := hplain c hc
      exact ⟨⟨hsemicolon, hbracket⟩, hpoint⟩
  constructor
  · intro h
    refine ⟨cs.splitOn '/', List.splitOn_ne_nil _ _, ?_, List.intercalate_splitOn '/'⟩
    intro part hmem
    exact (hpart part (slash_notMem_of_mem_splitOn hmem)).mp (List.all_eq_true.mp h part hmem)
  · rintro ⟨parts, hne, hparts, rfl⟩
    have hslash : ∀ part ∈ parts, '/' ∉ part := by
      intro part hmem hc
      exact ((hparts part hmem).plain '/' hc).1 rfl
    rw [isClassName, List.splitOn_intercalate '/' hslash hne, List.all_eq_true]
    intro part hmem
    exact (hpart part (hslash part hmem)).mpr (hparts part hmem)

/-! ## Elements -/

/-- The text of a type that is not an array. -/
inductive IsElement : List Char → Prop where
  | letter {c : Char} (h : c ∈ ['Z', 'B', 'C', 'S', 'I', 'J', 'F', 'D']) : IsElement [c]
  | className {parts : List (List Char)} (hne : parts ≠ [])
      (hparts : ∀ part ∈ parts, IsNamePart part) :
      IsElement ('L' :: (['/'].intercalate parts ++ [';']))

theorem mem_letters_iff {c : Char} :
    c ∈ ['Z', 'B', 'C', 'S', 'I', 'J', 'F', 'D'] ↔ ∃ primitive : Primitive, primitive.code = c := by
  constructor
  · intro h
    have hmem : c ∈ Primitive.all.map Primitive.code := h
    obtain ⟨primitive, -, hcode⟩ := List.mem_map.mp hmem
    exact ⟨primitive, hcode⟩
  · rintro ⟨primitive, rfl⟩
    cases primitive <;> decide

/-- Between `L` and a semicolon only a class name can stand. -/
theorem isElement_object_iff {cs : List Char} :
    IsElement ('L' :: (cs ++ [';'])) ↔ isClassName cs = true := by
  rw [isClassName_iff]
  constructor
  · intro h
    generalize htext : 'L' :: (cs ++ [';']) = text at h
    cases h with
    | letter _ => simp at htext
    | @className parts hne hparts =>
        obtain ⟨-, hname⟩ := List.cons.inj htext
        exact ⟨parts, hne, hparts, (List.append_cancel_right hname).symm⟩
  · rintro ⟨parts, hne, hparts, rfl⟩
    exact .className hne hparts

theorem scalar?_object (cs : List Char) :
    scalar? ('L' :: (cs ++ [';'])) =
      if isClassName cs = true then some (.object (String.ofList cs)) else none := by
  have hnot : ∀ code, 'L' :: (cs ++ [';']) ≠ [code] := by simp
  unfold scalar?
  split
  · exact absurd ‹_› (hnot _)
  · rename_i cs' _ hcs
    obtain rfl : cs ++ [';'] = cs' := (List.cons.inj hcs).2
    simp
  · rename_i hother
    exact absurd rfl (hother _)

/-- An element is classified exactly where it is written, as the type that is written so. -/
theorem scalar?_eq_some_iff {cs : List Char} {scalar : Scalar} :
    scalar? cs = some scalar ↔ IsElement cs ∧ scalar.signatureChars = cs := by
  constructor
  · intro h
    unfold scalar? at h
    split at h
    · rename_i code
      obtain ⟨primitive, hcode, rfl⟩ := Option.map_eq_some_iff.mp h
      obtain rfl := Primitive.ofCode?_eq_some_iff.mp hcode
      exact ⟨.letter (mem_letters_iff.mpr ⟨primitive, rfl⟩), rfl⟩
    · rename_i cs _
      split at h
      · rename_i hname
        simp only [Bool.and_eq_true, decide_eq_true_eq] at hname
        obtain ⟨name, rfl⟩ := List.getLast?_eq_some_iff.mp hname.1
        rw [List.dropLast_concat] at h hname
        obtain rfl := Option.some.inj h
        exact ⟨isElement_object_iff.mpr hname.2, by simp [Scalar.signatureChars]⟩
      · cases h
    · cases h
  · rintro ⟨helement, rfl⟩
    cases scalar with
    | primitive type => simp [Scalar.signatureChars, scalar?]
    | object className =>
        rw [Scalar.signatureChars, List.cons_append] at helement ⊢
        rw [scalar?_object, if_pos (isElement_object_iff.mp helement), String.ofList_toList]

theorem IsElement.exists_scalar {cs : List Char} (h : IsElement cs) :
    ∃ scalar : Scalar, scalar.signatureChars = cs := by
  cases h with
  | letter hletter =>
      obtain ⟨primitive, rfl⟩ := mem_letters_iff.mp hletter
      exact ⟨.primitive primitive, rfl⟩
  | @className parts _ _ =>
      exact ⟨.object (String.ofList (['/'].intercalate parts)), by simp [Scalar.signatureChars]⟩

theorem IsElement.head?_ne_bracket {cs : List Char} (h : IsElement cs) :
    cs.head? ≠ some '[' := by
  cases h with
  | letter hletter =>
      rintro hhead
      obtain rfl := Option.some.inj hhead
      simp at hletter
  | className _ _ => simp

/-! ## Dimensions -/

/-- The brackets at the front of a signature, and what stands behind them. -/
structure Bracketed (signature : Signature) (dimensions : Nat) (rest : List Char) : Prop where
  text_eq : signature.text.toList = List.replicate dimensions '[' ++ rest
  ended : rest.head? ≠ some '['

theorem exists_bracketed (signature : Signature) :
    ∃ dimensions rest, signature.Bracketed dimensions rest := by
  let cs := signature.text.toList
  refine ⟨(cs.takeWhile (· = '[')).length, cs.dropWhile (· = '['), ?_, ?_⟩
  · have hbrackets : ∀ c ∈ cs.takeWhile (· = '['), c = '[' := by
      intro c hc
      simpa using List.mem_takeWhile_imp hc
    rw [← List.eq_replicate_of_mem hbrackets, List.takeWhile_append_dropWhile]
  · intro hhead
    have hnot := List.head?_dropWhile_not (· = '[') cs
    rw [hhead] at hnot
    simp at hnot

theorem Bracketed.array {signature : Signature} {dimensions : Nat} {rest : List Char}
    (h : signature.Bracketed dimensions rest) : signature.array.Bracketed (dimensions + 1) rest :=
  ⟨by simp [Signature.array, h.text_eq, List.replicate_succ], h.ended⟩

/-- Each bracket counts as a dimension, and the rest as the element. -/
theorem Bracketed.type?_eq {signature : Signature} {dimensions : Nat} {rest : List Char}
    (h : signature.Bracketed dimensions rest) :
    signature.type? = (scalar? rest).bind fun element =>
      if dimensions < dimensionLimit then some ⟨element, dimensions⟩ else none := by
  have hbrackets : ∀ c ∈ List.replicate dimensions '[', decide (c = '[') = true := by
    intro c hc
    simpa using List.eq_of_mem_replicate hc
  have hsplit : rest.takeWhile (· = '[') = [] ∧ rest.dropWhile (· = '[') = rest := by
    cases rest with
    | nil => exact ⟨rfl, rfl⟩
    | cons c rest =>
        have hc : c ≠ '[' := fun hc => h.ended (congrArg some hc)
        simp [hc]
  rw [type?, h.text_eq, List.dropWhile_append_of_pos hbrackets,
    List.takeWhile_append_of_pos hbrackets, hsplit.1, hsplit.2, List.append_nil,
    List.length_replicate]
  cases scalar? rest with
  | none => rfl
  | some element =>
      change (Option.bind (guard (dimensions < dimensionLimit)) fun _ =>
        some (⟨element, dimensions⟩ : DeclaredType)) = _
      rw [Option.bind_some]
      by_cases hlimit : dimensions < dimensionLimit
      · have hguard : guard (dimensions < dimensionLimit) = some () := if_pos hlimit
        rw [hguard, Option.bind_some, if_pos hlimit]
      · have hguard : guard (dimensions < dimensionLimit) = none := if_neg hlimit
        rw [hguard, Option.bind_none, if_neg hlimit]

/-- A signature is classified exactly where it is written, as the type that is written so. -/
theorem type?_eq_some_iff {signature : Signature} {type : DeclaredType} :
    signature.type? = some type ↔ type.dimensions < dimensionLimit ∧
      IsElement type.element.signatureChars ∧ type.signatureChars = signature.text.toList := by
  constructor
  · intro h
    obtain ⟨dimensions, rest, hbracketed⟩ := signature.exists_bracketed
    rw [hbracketed.type?_eq, Option.bind_eq_some_iff] at h
    obtain ⟨element, helement, h⟩ := h
    obtain ⟨hrest, rfl⟩ := scalar?_eq_some_iff.mp helement
    split at h
    · rename_i hlimit
      obtain rfl := Option.some.inj h
      exact ⟨hlimit, hrest, hbracketed.text_eq.symm⟩
    · cases h
  · rintro ⟨hlimit, helement, htext⟩
    have hbracketed : signature.Bracketed type.dimensions type.element.signatureChars :=
      ⟨htext.symm, helement.head?_ne_bracket⟩
    rw [hbracketed.type?_eq, scalar?_eq_some_iff.mpr ⟨helement, rfl⟩, Option.bind_some,
      if_pos hlimit]

/-- A bracket in front adds a dimension, unless there are too many. -/
theorem type?_array (signature : Signature) :
    signature.array.type? = signature.type?.bind fun type =>
      if type.dimensions + 1 < dimensionLimit then some ⟨type.element, type.dimensions + 1⟩
      else none := by
  obtain ⟨dimensions, rest, hbracketed⟩ := signature.exists_bracketed
  rw [hbracketed.array.type?_eq, hbracketed.type?_eq]
  cases scalar? rest with
  | none => rfl
  | some element =>
      by_cases hlimit : dimensions < dimensionLimit
      · simp [hlimit]
      · have hmore : ¬dimensions + 1 < dimensionLimit := by omega
        simp [hlimit, hmore]

/-! ## Classification -/

/-- All that classification says about a signature, and what the signature says about its
type. -/
structure Classified (signature : Signature) : Prop where
  valid_iff : signature.type?.isSome = true ↔ ∃ dimensions element, dimensions ≤ 2 ^ 32 - 1 ∧
    IsElement element ∧ signature.text.toList = List.replicate dimensions '[' ++ element
  type_eq : ∀ dimensions element, dimensions ≤ 2 ^ 32 - 1 → IsElement element →
    signature.text.toList = List.replicate dimensions '[' ++ element →
    ∃ scalar, signature.type? = some ⟨scalar, dimensions⟩ ∧
      type? ⟨String.ofList element⟩ = some ⟨scalar, 0⟩
  encoded : ∀ type, signature.type? = some type → type.signature = signature
  injective : ∀ other type, signature.type? = some type → other.type? = some type →
    other = signature
  array_valid : ∀ type, signature.type? = some type → type.dimensions < 2 ^ 32 - 1 →
    signature.array.type? = some ⟨type.element, type.dimensions + 1⟩
  array_invalid : signature.type? = none → signature.array.type? = none

theorem signature_of_type? {signature : Signature} {type : DeclaredType}
    (h : signature.type? = some type) : type.signature = signature := by
  obtain ⟨-, -, htext⟩ := type?_eq_some_iff.mp h
  rw [DeclaredType.signature, htext, String.ofList_toList]

theorem exists_type?_of_isElement {signature : Signature} {dimensions : Nat} {element : List Char}
    (hlimit : dimensions < dimensionLimit) (helement : IsElement element)
    (htext : signature.text.toList = List.replicate dimensions '[' ++ element) :
    ∃ scalar, signature.type? = some ⟨scalar, dimensions⟩ ∧ scalar.signatureChars = element := by
  obtain ⟨scalar, rfl⟩ := helement.exists_scalar
  exact ⟨scalar, type?_eq_some_iff.mpr ⟨hlimit, helement, htext.symm⟩, rfl⟩

end Signature

/-- Classification accepts exactly the signatures of the grammar and loses nothing of them. -/
theorem signature_classified (signature : Signature) : signature.Classified where
  valid_iff := by
    rw [Option.isSome_iff_exists]
    constructor
    · rintro ⟨type, htype⟩
      obtain ⟨hlimit, helement, htext⟩ := Signature.type?_eq_some_iff.mp htype
      exact ⟨type.dimensions, type.element.signatureChars, Nat.le_of_lt_succ hlimit, helement,
        htext.symm⟩
    · rintro ⟨dimensions, element, hle, helement, htext⟩
      obtain ⟨scalar, htype, -⟩ :=
        Signature.exists_type?_of_isElement (Nat.lt_succ_of_le hle) helement htext
      exact ⟨_, htype⟩
  type_eq := by
    intro dimensions element hle helement htext
    obtain ⟨scalar, htype, rfl⟩ :=
      Signature.exists_type?_of_isElement (Nat.lt_succ_of_le hle) helement htext
    have hzero : 0 < Signature.dimensionLimit := by decide
    exact ⟨scalar, htype, Signature.type?_eq_some_iff.mpr
      ⟨hzero, helement, String.toList_ofList.symm⟩⟩
  encoded := fun _ => Signature.signature_of_type?
  injective := by
    intro other type htype hother
    rw [← Signature.signature_of_type? htype, Signature.signature_of_type? hother]
  array_valid := by
    intro type htype hlt
    have hlimit : type.dimensions + 1 < Signature.dimensionLimit := Nat.add_lt_of_lt_sub hlt
    rw [Signature.type?_array, htype, Option.bind_some, if_pos hlimit]
  array_invalid := by
    intro hnone
    rw [Signature.type?_array, hnone, Option.bind_none]

/-- The parts of a class name may hold any other characters, and brackets go in front. -/
theorem signature_classified_nested :
    Signature.IsElement ("Ljava/é+$;".toList) ∧
      ∃ scalar, Signature.type? ⟨"[[Ljava/é+$;"⟩ = some ⟨scalar, 2⟩ ∧
        Signature.type? ⟨String.ofList "Ljava/é+$;".toList⟩ = some ⟨scalar, 0⟩ := by
  have helement : Signature.IsElement ("Ljava/é+$;".toList) :=
    (@Signature.isElement_object_iff "java/é+$".toList).mpr (by decide +kernel)
  exact ⟨helement, (signature_classified ⟨"[[Ljava/é+$;"⟩).type_eq 2 _ (by decide) helement rfl⟩

end FormatCheck
