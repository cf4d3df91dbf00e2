import FormatCheck.CommandLine.Outcome

/-! # The program -/

namespace FormatCheck

/-- Why the system could not deliver bytes. -/
def ReadError.ofSystem : IO.Error → ReadError
  | .noFileOrDirectory .. => .notFound
  | .permissionDenied .. => .denied
  | .inappropriateType _ code _ => if code = 21 then .isDirectory else .notDirectory
  | .invalidArgument .. => .nameTooLong
  | error => .other error.toString

def readSource (source : Source) : IO (Except ReadError String) := do
  try
    let bytes ← match source with
      | .standardInput => (← IO.getStdin).readBinToEnd
      | .file path => IO.FS.readBinFile path
    return decodeText bytes
  catch error =>
    return .error (.ofSystem error)

/-- Reads what the command needs before it runs. -/
def prepare (arguments : List String) : IO Environment := do
  let isTerminal ← (← IO.getStderr).isTty
  match Invocation.ofArguments arguments with
  | .ok invocation =>
      match invocation.command.source? with
      | some source =>
          let input ← readSource source
          return ⟨fun _ => input, isTerminal⟩
      | none => return ⟨fun _ => .error .notFound, isTerminal⟩
  | .error _ => return ⟨fun _ => .error .notFound, isTerminal⟩

end FormatCheck

open FormatCheck in
def main (arguments : List String) : IO UInt32 := do
  let outcome := run (← prepare arguments) arguments
  (← IO.getStdout).putStr outcome.stdout
  (← IO.getStderr).putStr outcome.stderr
  return outcome.status.code
