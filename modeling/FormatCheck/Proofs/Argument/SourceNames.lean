import FormatCheck.Proofs.Argument.Classification
import FormatCheck.Text.Lines

/-! # Source names of types

A signature is taken for itself, and the source form of a type is decoded to its signature.
Only the source form of a class without a package is lost: nothing in it shows that it names
a class. -/

namespace FormatCheck

/-- Types that source text can name: primitive types and the classes of packages. -/
def Scalar.IsNameable : Scalar → Prop
  | .primitive _ => True
  | .object className => '/' ∈ className.toList

instance : DecidablePred Scalar.IsNameable
  | .primitive _ => .isTrue trivial
  | .object className => inferInstanceAs (Decidable ('/' ∈ className.toList))

/-! ## Brackets behind a name -/

theorem DeclaredType.text_succ (element : Scalar) (dimensions : Nat) :
    text ⟨element, dimensions + 1⟩ = text ⟨element, dimensions⟩ ++ "[]" := by
  simp [text, List.replicate_succ', String.append_assoc]

theorem DeclaredType.signature_succ (element : Scalar) (dimensions : Nat) :
    signature ⟨element, dimensions + 1⟩ = (signature ⟨element, dimensions⟩).array := by
  simp [signature, signatureChars, Signature.array, List.replicate_succ]

namespace Signature

theorem array_inj {signature other : Signature} :
    signature.array = other.array ↔ signature = other := by
  obtain ⟨text⟩ := signature
  obtain ⟨text'⟩ := other
  simp [array, ← String.toList_inj]

/-- Brackets behind a name make an array of what stands before them. -/
theorem ofSourceName_brackets (name : String) :
    ofSourceName (name ++ "[]") = (ofSourceName name).array := by
  have hreverse : (name ++ "[]").toList.reverse = ']' :: '[' :: name.toList.reverse := by simp
  rw [ofSourceName, hreverse, ofReversedName, ofSourceName, array]
  simp

/-- A name without brackets behind it is taken as a whole. -/
theorem ofSourceName_of_not_suffix {name : String} (h : ¬['[', ']'] <:+ name.toList) :
    ofSourceName name = ofElementName name := by
  unfold ofSourceName ofReversedName
  split
  · rename_i rest hreverse
    have hname : name.toList = rest.reverse ++ ['[', ']'] := by
      rw [← List.reverse_reverse name.toList, hreverse]
      simp
    exact absurd ⟨rest.reverse, hname.symm⟩ h
  · rw [List.reverse_reverse, String.ofList_toList, String.ofList_toList]

/-- An array is decoded exactly where its element is. -/
theorem ofSourceName_text_iff (element : Scalar) (dimensions : Nat) :
    ofSourceName (DeclaredType.text ⟨element, dimensions⟩) =
        DeclaredType.signature ⟨element, dimensions⟩ ↔
      ofSourceName element.text = DeclaredType.signature ⟨element, 0⟩ := by
  induction dimensions with
  | zero => simp [DeclaredType.text]
  | succ dimensions ih =>
      rw [DeclaredType.text_succ, DeclaredType.signature_succ, ofSourceName_brackets, array_inj, ih]

/-! ## Characters of signatures -/

/-- The last characters that signatures can have. -/
def lastChars : List Char :=
  [';', 'Z', 'B', 'C', 'S', 'I', 'J', 'F', 'D']

theorem IsElement.exists_getLast? {element : List Char} (h : IsElement element)
    (front : List Char) : ∃ c ∈ lastChars, (front ++ element).getLast? = some c := by
  cases h with
  | @letter c hletter => exact ⟨c, List.mem_cons_of_mem _ hletter, List.getLast?_concat⟩
  | className _ _ =>
      refine ⟨';', List.mem_cons_self, ?_⟩
      rw [← List.cons_append, ← List.append_assoc, List.getLast?_concat]

theorem lastChars_name (primitive : Primitive) :
    primitive.name.toList.getLast?.any lastChars.contains = false := by
  cases primitive <;> decide

/-- Class names keep apart from the characters around and between names. -/
theorem plain_of_isClassName {cs : List Char} (h : isClassName cs = true) :
    ∀ c ∈ cs, c ≠ ';' ∧ c ≠ '[' ∧ c ≠ '.' := by
  obtain ⟨parts, -, hparts, rfl⟩ := isClassName_iff.mp h
  intro c hc
  rcases Text.mem_intercalate hc with rfl | ⟨part, hpart, hc⟩
  · decide
  · exact ((hparts part hpart).plain c hc).2

theorem IsElement.point_notMem {element : List Char} (h : IsElement element) : '.' ∉ element := by
  intro hmem
  cases h with
  | letter hletter =>
      obtain rfl := List.mem_singleton.mp hmem
      simp at hletter
  | className hne hparts =>
      have hname := plain_of_isClassName (isClassName_iff.mpr ⟨_, hne, hparts, rfl⟩)
      simp only [List.mem_cons, List.mem_append, List.not_mem_nil, or_false] at hmem
      rcases hmem with hfirst | hmem | hlast
      · cases hfirst
      · exact (hname '.' hmem).2.2 rfl
      · cases hlast

/-! ## Signatures as names -/

/-- A signature is taken for itself. -/
theorem ofSourceName_of_type? {signature : Signature} {type : DeclaredType}
    (h : signature.type? = some type) : ofSourceName signature.text = signature := by
  obtain ⟨-, helement, htext⟩ := type?_eq_some_iff.mp h
  obtain ⟨last, hmem, hlast⟩ :=
    helement.exists_getLast? (List.replicate type.dimensions '[')
  rw [← DeclaredType.signatureChars, htext] at hlast
  have hsuffix : ¬['[', ']'] <:+ signature.text.toList := by
    rintro ⟨front, hfront⟩
    rw [← hfront, List.getLast?_append] at hlast
    obtain rfl := Option.some.inj hlast
    simp [lastChars] at hmem
  have hkeyword : Primitive.ofName? signature.text = none := by
    rw [Option.eq_none_iff_forall_ne_some]
    intro primitive hname
    rw [← Primitive.ofName?_eq_some_iff.mp hname] at hlast
    have hnot := lastChars_name primitive
    simp [hlast, hmem] at hnot
  have hpoint : '.' ∉ signature.text.toList := by
    rw [← htext, DeclaredType.signatureChars, List.mem_append]
    rintro (hbracket | hpoint)
    · cases List.eq_of_mem_replicate hbracket
    · exact helement.point_notMem hpoint
  rw [ofSourceName_of_not_suffix hsuffix, ofElementName, hkeyword]
  simp [hpoint]

/-! ## Names of elements -/

theorem ofSourceName_primitive (primitive : Primitive) :
    ofSourceName (Scalar.text (.primitive primitive)) = ofPrimitive primitive := by
  have hsuffix : ¬['[', ']'] <:+ primitive.name.toList := by cases primitive <;> decide
  rw [Scalar.text, ofSourceName_of_not_suffix hsuffix, ofElementName, Primitive.ofName?_name]

/-- The source form of a class name has points, but no other character that has a meaning of
its own. -/
theorem plain_of_mem_text {className : String} (h : isClassName className.toList = true) :
    ∀ c ∈ (Scalar.text (.object className)).toList, c ≠ ';' ∧ c ≠ '/' ∧ c ≠ '[' := by
  intro c hc
  rw [Scalar.text, String.toList_ofList] at hc
  obtain ⟨original, horiginal, rfl⟩ := List.mem_map.mp hc
  obtain ⟨hsemicolon, hbracket, -⟩ := plain_of_isClassName h original horiginal
  split_ifs with hslash
  · decide
  · exact ⟨hsemicolon, hslash, hbracket⟩

theorem ofSourceName_className {className : String} (h : isClassName className.toList = true) :
    ofSourceName (Scalar.text (.object className)) =
      ofElementName (Scalar.text (.object className)) := by
  apply ofSourceName_of_not_suffix
  intro hsuffix
  exact (plain_of_mem_text h '[' (hsuffix.subset (by simp))).2.2 rfl

/-- Points in the place of slashes can be undone: a class name has no points of its own. -/
theorem ofClass_text {className : String} (h : isClassName className.toList = true) :
    ofClass (Scalar.text (.object className)) = DeclaredType.signature ⟨.object className, 0⟩ := by
  have hback : ∀ c ∈ className.toList,
      ((fun c => if c = '.' then '/' else c) ∘ fun c => if c = '/' then '.' else c) c = id c := by
    intro c hc
    have hpoint := (plain_of_isClassName h c hc).2.2
    by_cases hslash : c = '/' <;> simp [hslash, hpoint]
  rw [ofClass, Scalar.text, String.toList_ofList, List.map_map, List.map_congr_left hback,
    List.map_id]
  rfl

theorem ofElementName_qualified {className : String} (h : isClassName className.toList = true)
    (hslash : '/' ∈ className.toList) :
    ofElementName (Scalar.text (.object className)) =
      DeclaredType.signature ⟨.object className, 0⟩ := by
  have hpoint : '.' ∈ (Scalar.text (.object className)).toList := by
    rw [Scalar.text, String.toList_ofList]
    exact List.mem_map.mpr ⟨'/', hslash, rfl⟩
  have hkeyword : Primitive.ofName? (Scalar.text (.object className)) = none := by
    rw [Option.eq_none_iff_forall_ne_some]
    intro primitive hname
    rw [← Primitive.ofName?_eq_some_iff.mp hname] at hpoint
    cases primitive <;> simp [Primitive.name] at hpoint
  rw [ofElementName, hkeyword, ← ofClass_text h]
  apply if_pos
  simpa [hpoint, and_assoc] using plain_of_mem_text h

/-- Only names with points become longer. -/
theorem length_ofElementName_le {name : String} (h : '.' ∉ name.toList) :
    (ofElementName name).text.toList.length ≤ name.toList.length := by
  unfold ofElementName
  split
  · rename_i primitive hname
    rw [← Primitive.ofName?_eq_some_iff.mp hname]
    cases primitive <;> decide
  · simp [h]

/-- Without a slash the source form is the bare name, shorter than the signature. -/
theorem ofElementName_unqualified {className : String} (h : isClassName className.toList = true)
    (hslash : '/' ∉ className.toList) :
    ofElementName (Scalar.text (.object className)) ≠
      DeclaredType.signature ⟨.object className, 0⟩ := by
  have hsame : ∀ c ∈ className.toList, (if c = '/' then '.' else c) = id c := by
    intro c hc
    exact if_neg (ne_of_mem_of_not_mem hc hslash)
  have htext : Scalar.text (.object className) = className := by
    rw [Scalar.text, List.map_congr_left hsame, List.map_id, String.ofList_toList]
  have hpoint : '.' ∉ className.toList := by
    intro hmem
    exact (plain_of_isClassName h '.' hmem).2.2 rfl
  have hlength : (DeclaredType.signature ⟨.object className, 0⟩).text.toList.length =
      className.toList.length + 2 := by
    rw [DeclaredType.signature, String.toList_ofList, DeclaredType.signatureChars,
      Scalar.signatureChars, List.replicate_zero, List.nil_append, List.cons_append,
      List.length_cons, List.length_append]
    rfl
  intro heq
  have hle := length_ofElementName_le hpoint
  rw [htext] at heq
  rw [heq, hlength] at hle
  omega

/-- The name of an element is decoded exactly where source text can name it. -/
theorem ofSourceName_element_iff {element : Scalar} (h : IsElement element.signatureChars) :
    ofSourceName element.text = DeclaredType.signature ⟨element, 0⟩ ↔ element.IsNameable := by
  cases element with
  | primitive primitive =>
      rw [ofSourceName_primitive]
      exact iff_of_true rfl trivial
  | object className =>
      have hname : isClassName className.toList = true := isElement_object_iff.mp h
      rw [ofSourceName_className hname]
      constructor
      · intro heq
        by_contra hslash
        exact ofElementName_unqualified hname hslash heq
      · exact ofElementName_qualified hname

/-! ## Source forms of signatures -/

/-- What is printed for a valid signature is its type. -/
theorem sourceText_of_type? {signature : Signature} {type : DeclaredType}
    (h : signature.type? = some type) : signature.sourceText = type.text := by
  rw [sourceText, h]

theorem ofSourceName_sourceText_iff {signature : Signature} {type : DeclaredType}
    (h : signature.type? = some type) :
    ofSourceName signature.sourceText = signature ↔ type.element.IsNameable := by
  obtain ⟨-, helement, -⟩ := type?_eq_some_iff.mp h
  rw [sourceText_of_type? h, ← ofSourceName_element_iff helement, ← ofSourceName_text_iff,
    signature_of_type? h]

end Signature

/-- Signatures and source names decode to the same signature. A signature is taken for itself,
the source form of a type gives its signature exactly where source text can name the type, and
so no two such types have one source form. -/
theorem source_names_decode (signature : Signature) (type : DeclaredType)
    (h : signature.type? = some type) :
    Signature.ofSourceName signature.text = signature ∧
      (Signature.ofSourceName signature.sourceText = signature ↔ type.element.IsNameable) ∧
      ∀ other otherType, other.type? = some otherType → type.element.IsNameable →
        otherType.element.IsNameable → other.sourceText = signature.sourceText →
        other = signature := by
  refine ⟨Signature.ofSourceName_of_type? h, Signature.ofSourceName_sourceText_iff h, ?_⟩
  intro other otherType hother hnameable hnameable' htext
  rw [← (Signature.ofSourceName_sourceText_iff h).mpr hnameable,
    ← (Signature.ofSourceName_sourceText_iff hother).mpr hnameable', htext]

/-- A closing bracket may end a class name, and then stands before the brackets of the array. -/
theorem source_names_decode_bracket :
    Signature.type? ⟨"[La/b];"⟩ = some ⟨.object "a/b]", 1⟩ ∧
      Signature.sourceText ⟨"[La/b];"⟩ = "a.b][]" ∧
      Signature.ofSourceName "a.b][]" = ⟨"[La/b];"⟩ := by
  have htype : Signature.type? ⟨"[La/b];"⟩ = some ⟨.object "a/b]", 1⟩ := by decide +kernel
  have htext : Signature.sourceText ⟨"[La/b];"⟩ = "a.b][]" := by decide +kernel
  obtain ⟨-, hdecodes, -⟩ := source_names_decode _ _ htype
  have hslash : Scalar.IsNameable (.object "a/b]") := by decide +kernel
  exact ⟨htype, htext, htext ▸ hdecodes.mpr hslash⟩

end FormatCheck
