import FormatCheck.Argument.Primitive

/-! # Declared types -/

namespace FormatCheck

/-- A type that is not an array. A class is given by its internal name, with
slashes between its parts. -/
inductive Scalar where
  | primitive (primitive : Primitive)
  | object (className : String)
deriving DecidableEq

namespace Scalar

/-- The type as it is written in source text, with points between the parts of a name. -/
def text : Scalar → String
  | .primitive type => type.name
  | .object className => String.ofList (className.toList.map fun c => if c = '/' then '.' else c)

/-- The type as it is written in a signature. -/
def signatureChars : Scalar → List Char
  | .primitive type => [type.code]
  | .object className => 'L' :: className.toList ++ [';']

/-- The class that holds values of the type. -/
def className : Scalar → String
  | .primitive type => type.wrapper
  | .object className => className

end Scalar

/-- A type as a call declares it: an array with some number of dimensions, or, with
none, just its element. -/
structure DeclaredType where
  element : Scalar
  dimensions : Nat
deriving DecidableEq

namespace DeclaredType

def isArray (type : DeclaredType) : Bool :=
  type.dimensions ≠ 0

def text (type : DeclaredType) : String :=
  type.element.text ++ String.join (List.replicate type.dimensions "[]")

def signatureChars (type : DeclaredType) : List Char :=
  List.replicate type.dimensions '[' ++ type.element.signatureChars

end DeclaredType

end FormatCheck
