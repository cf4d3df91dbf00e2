import FormatCheck.CommandLine.Options
import FormatCheck.CommandLine.Source

/-! # Commands -/

namespace FormatCheck

/-- The commands that cannot do without an operand. -/
inductive Operation where
  | check
  | batch
  | explain
deriving DecidableEq

/-- What the program is asked to do. -/
inductive Command where
  | check (format : String) (arguments : List String)
  | batch (path : String)
  | explain (code : String)
  | help
  | version
  | incomplete (operation : Operation)
  | unknown (name : String)
deriving DecidableEq

namespace Command

/-- The command that arguments without options stand for. Operands that it does not
need are ignored. -/
def ofArguments : List String → Command
  | [] => .help
  | name :: operands =>
      match name, operands with
      | "check", format :: arguments => .check format arguments
      | "check", [] => .incomplete .check
      | "batch", path :: _ => .batch path
      | "batch", [] => .incomplete .batch
      | "explain", code :: _ | "--explain", code :: _ => .explain code
      | "explain", [] | "--explain", [] => .incomplete .explain
      | "help", _ => .help
      | "version", _ => .version
      | _, _ => .unknown name

/-- The text that a command has to read first. -/
def source? : Command → Option Source
  | .batch path => some (.ofPath path)
  | _ => none

end Command

/-- A command with its options. -/
structure Invocation where
  options : Options
  command : Command
deriving DecidableEq

def Invocation.ofArguments (arguments : List String) : Except OptionError Invocation :=
  (Options.ofArguments arguments).map fun (options, others) => ⟨options, .ofArguments others⟩

end FormatCheck
