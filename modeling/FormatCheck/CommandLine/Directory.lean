import FormatCheck.CommandLine.Source
import FormatCheck.Text.Bytes

/-! # Working directories -/

namespace FormatCheck

/-- The working directory of a run, known by the files in and below it. Each file
stands under the names that lead to it. -/
structure Directory where
  files : List (List (List Char) × ByteArray)

/-- Where the first names of a path lead: to a directory at or below the working
directory, to one that is not, or to a file. -/
inductive Place where
  | inside (names : List (List Char))
  | outside
  | file (content : ByteArray)

namespace Directory

def longestName : Nat := 255

def longestPath : Nat := 4095

def ofFiles (files : List (String × ByteArray)) : Directory where
  files := files.map fun (path, content) => (path.toList.splitOn '/', content)

/-- What stands under names that start at the working directory. -/
def lookup (directory : Directory) (names : List (List Char)) : Except ReadError Place :=
  match directory.files.lookup names with
  | some content => .ok (.file content)
  | none =>
      if directory.files.any fun (path, _) => names.isPrefixOf path then .ok (.inside names)
      else .error .notFound

/-- Follows one name of a path. An empty name or a dot stays in place, two dots lead up,
and nothing is found outside the working directory. -/
def step (directory : Directory) : Place → List Char → Except ReadError Place
  | .file _, _ => .error .notDirectory
  | place, [] => .ok place
  | place, ['.'] => .ok place
  | .outside, ['.', '.'] => .ok .outside
  | .inside names, ['.', '.'] => .ok (if names.isEmpty then .outside else .inside names.dropLast)
  | place, name =>
      if longestName < Text.byteLength name then .error .nameTooLong
      else match place with
        | .inside names => directory.lookup (names ++ [name])
        | _ => .error .notFound

/-- Follows a path to its end. A path that starts with a slash does not start at the
working directory. -/
def walk (directory : Directory) (path : List Char) : Except ReadError Place :=
  if path.isEmpty then .error .notFound
  else if longestPath < Text.byteLength path then .error .nameTooLong
  else
    let start := if path.head? = some '/' then .outside else .inside []
    (path.splitOn '/').foldlM directory.step start

def read (directory : Directory) (path : String) : Except ReadError ByteArray := do
  match ← directory.walk path.toList with
  | .file content => return content
  | _ => throw .isDirectory

/-- The text of a source, given the bytes of standard input. -/
def readSource (directory : Directory) (standardInput : ByteArray) :
    Source → Except ReadError String
  | .standardInput => decodeText standardInput
  | .file path => directory.read path >>= decodeText

end Directory

end FormatCheck
