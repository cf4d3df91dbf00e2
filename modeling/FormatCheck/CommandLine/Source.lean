/-! # Sources of text -/

namespace FormatCheck

/-- Where a batch file comes from. -/
inductive Source where
  | standardInput
  | file (path : String)
deriving DecidableEq

/-- A lone dash stands for standard input. -/
def Source.ofPath (path : String) : Source :=
  if path = "-" then .standardInput else .file path

/-- Why text could not be read. -/
inductive ReadError where
  | notFound
  | denied
  | isDirectory
  | notDirectory
  | nameTooLong
  | notUnicode
  | other (message : String)
deriving DecidableEq

def ReadError.text : ReadError → String
  | notFound => "entity not found"
  | denied => "permission denied"
  | isDirectory => "Is a directory (os error 21)"
  | notDirectory => "Not a directory (os error 20)"
  | nameTooLong => "File name too long (os error 36)"
  | notUnicode => "stream did not contain valid UTF-8"
  | other message => message

/-- What is said about a source that could not be read. -/
def Source.errorMessage : Source → ReadError → String
  | standardInput, error => "error reading standard input: " ++ error.text
  | file path, .notFound => "cannot find file '" ++ path ++ "'"
  | file path, .denied => "permission denied reading '" ++ path ++ "'"
  | file path, .notUnicode => "'" ++ path ++ "' contains invalid UTF-8 data"
  | file path, error => "error reading '" ++ path ++ "': " ++ error.text

/-- The text that bytes encode. -/
def decodeText (bytes : ByteArray) : Except ReadError String :=
  match String.fromUTF8? bytes with
  | some text => .ok text
  | none => .error .notUnicode

end FormatCheck
