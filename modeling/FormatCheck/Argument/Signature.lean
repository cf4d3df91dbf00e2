import FormatCheck.Argument.DeclaredType

/-! # Signatures of arguments -/

namespace FormatCheck

/-- The signature text of an argument, which need not be well formed. -/
structure Signature where
  text : String
deriving DecidableEq, Inhabited

namespace Signature

def ofPrimitive (primitive : Primitive) : Signature :=
  ⟨String.ofList [primitive.code]⟩

/-- The signature of a class, given by its name with points or slashes. -/
def ofClass (name : String) : Signature :=
  ⟨String.ofList ('L' :: name.toList.map (fun c => if c = '.' then '/' else c) ++ [';'])⟩

/-- The signature of an array with the given elements. -/
def array (element : Signature) : Signature :=
  ⟨"[" ++ element.text⟩

/-! ## Classification -/

/-- Class names consist of nonempty parts between slashes, free of the characters
that have a meaning of their own in signatures and in source text. -/
def isClassName (cs : List Char) : Bool :=
  (cs.splitOn '/').all fun part =>
    !part.isEmpty && part.all fun c => c ≠ ';' && c ≠ '[' && c ≠ '.'

def scalar? : List Char → Option Scalar
  | [code] => (Primitive.ofCode? code).map .primitive
  | 'L' :: cs =>
      if cs.getLast? = some ';' && isClassName cs.dropLast then
        some (.object (String.ofList cs.dropLast))
      else none
  | _ => none

/-- A type has fewer dimensions than this. -/
def dimensionLimit : Nat := UInt32.size

/-- The type that a signature stands for, if it is well formed. -/
def type? (signature : Signature) : Option DeclaredType := do
  let cs := signature.text.toList
  let element ← scalar? (cs.dropWhile (· = '['))
  let dimensions := (cs.takeWhile (· = '[')).length
  guard (dimensions < dimensionLimit)
  return ⟨element, dimensions⟩

/-- The type in source form, if the signature stands for one. -/
def typeText (signature : Signature) : String :=
  match signature.type? with
  | some type => type.text
  | none => "<invalid descriptor>"

/-- The type in source form, or the signature itself when it stands for none. -/
def sourceText (signature : Signature) : String :=
  match signature.type? with
  | some type => type.text
  | none => "<invalid descriptor `" ++ signature.text ++ "`>"

/-! ## Source names -/

/-- The signature of a name that does not end in brackets: a keyword, a class name
with points, or a signature. -/
def ofElementName (name : String) : Signature :=
  match Primitive.ofName? name with
  | some primitive => ofPrimitive primitive
  | none =>
      let cs := name.toList
      if cs.contains '.' && cs.all fun c => c ≠ ';' && c ≠ '/' && c ≠ '[' then ofClass name
      else ⟨name⟩

/-- The signature of a name given backwards; each pair of brackets at its end adds
a dimension. -/
def ofReversedName : List Char → List Char
  | ']' :: '[' :: rest => '[' :: ofReversedName rest
  | reversed => (ofElementName (String.ofList reversed.reverse)).text.toList

/-- The signature of a type named as in source text. Text that names none is taken
for a signature. -/
def ofSourceName (name : String) : Signature :=
  ⟨String.ofList (ofReversedName name.toList.reverse)⟩

end Signature

/-- The signature of a type. -/
def DeclaredType.signature (type : DeclaredType) : Signature :=
  ⟨String.ofList type.signatureChars⟩

end FormatCheck
