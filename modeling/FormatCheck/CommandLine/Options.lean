import FormatCheck.Report.Terminal

/-! # Command line options -/

namespace FormatCheck

/-- What applies to every command. Checking in parallel does not change the outcome. -/
structure Options where
  json : Bool := false
  color : ColorMode := .auto
  parallel : Bool := true
  verbose : Bool := false
deriving DecidableEq

/-- An option that cannot be read. -/
inductive OptionError where
  | unknown (option : String)
  | invalidColor (mode : String)
deriving DecidableEq

def OptionError.message : OptionError → String
  | unknown option => "unknown option `" ++ option ++ "`"
  | invalidColor mode =>
      "invalid color mode `" ++ mode ++ "` (expected auto, always or never)"

namespace Options

/-- Whether an argument is an option; a lone dash is not. -/
def isOption (argument : String) : Bool :=
  match argument.toList with
  | '-' :: _ :: _ => true
  | _ => false

/-- The text after `--color=`. -/
def colorValue? (option : String) : Option String :=
  let cs := option.toList
  let key := "--color=".toList
  if key.isPrefixOf cs then some (String.ofList (cs.drop key.length)) else none

/-- The options after one more of them. -/
def set (options : Options) (option : String) : Except OptionError Options :=
  match option with
  | "--json" => .ok { options with json := true }
  | "--no-parallel" => .ok { options with parallel := false }
  | "-v" | "--verbose" => .ok { options with verbose := true }
  | _ =>
      match colorValue? option with
      | none => .error (.unknown option)
      | some value =>
          match ColorMode.ofText? value with
          | some color => .ok { options with color }
          | none => .error (.invalidColor value)

/-- Separates options from the other arguments. Options may stand anywhere before
`--`; everything after it is taken as it is. -/
def ofArgumentsFrom (options : Options) : List String → Except OptionError (Options × List String)
  | [] => .ok (options, [])
  | "--" :: rest => .ok (options, rest)
  | argument :: rest =>
      if isOption argument then
        match options.set argument with
        | .ok options => options.ofArgumentsFrom rest
        | .error error => .error error
      else
        (options.ofArgumentsFrom rest).map fun (options, others) => (options, argument :: others)

def ofArguments (arguments : List String) : Except OptionError (Options × List String) :=
  ({} : Options).ofArgumentsFrom arguments

end Options

end FormatCheck
