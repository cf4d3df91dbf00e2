import FormatCheck.Batch.Entry
import FormatCheck.CommandLine.Command
import FormatCheck.Report.Diagnosis
import FormatCheck.Report.Page
import FormatCheck.Report.Writer

/-! # Outcomes of commands -/

namespace FormatCheck

/-- How a run of the program ends: all is well, something failed, or it was not
understood. -/
inductive Status where
  | passed
  | failed
  | misused
deriving DecidableEq

def Status.code : Status → UInt32
  | passed => 0
  | failed => 1
  | misused => 2

/-- What a run of the program writes, and how it ends. -/
structure Outcome where
  status : Status
  stdout : String := ""
  stderr : String := ""
deriving DecidableEq

/-! ## Fixed texts -/

/-- Lines of text, each with its end. -/
def unlines (lines : List String) : String :=
  String.join (lines.map (· ++ "\n"))

def version : String := "0.1.0"

def usage : String :=
  unlines [
    "Format String Checker",
    "",
    "Usage: fsc [options] <command> [args]",
    "",
    "Commands:",
    "  check <format> [descriptor...]  Check one call site",
    "  batch <file|->                  Check one call site per line",
    "  explain <code>                  Explain an error code (e.g., E2001)",
    "  help                            Show this help message",
    "  version                         Show version information",
    "",
    "Descriptors are JVM signatures (I, Ljava/lang/String;, [J) or",
    "source names (int, java.lang.String, long[]).",
    "",
    "Batch lines are `<format>\\t<descriptor> <descriptor>...` and take the",
    "same descriptor forms; blank lines and lines starting with # are skipped.",
    "",
    "Options:",
    "  --json                Emit diagnostics as JSON on stdout",
    "  --color=<mode>        Color output: auto, always, never",
    "  --no-parallel         Check batch entries on one thread",
    "  -v, --verbose         Also report passing batch lines",
    "  --                    Treat everything after as positional",
    "",
    "Set FSC_LOG (or RUST_LOG) to enable tracing, e.g. FSC_LOG=fsc_check=debug."]

/-- How an operation is used, said when its operand is missing. -/
def Operation.usageLines : Operation → List String
  | check =>
      ["Usage: fsc check <format> [descriptor...]",
        "Example: fsc check '%s owes %.2f' java.lang.String D"]
  | batch => ["Usage: fsc batch <file|->"]
  | explain => ["Usage: fsc explain <ERROR_CODE>", "Example: fsc explain E2001"]

/-- The outcome of a command line that is not understood. -/
def Outcome.refusal (message : String) : Outcome where
  status := .misused
  stdout := usage
  stderr := unlines [message, ""]

/-! ## Reports -/

/-- A failure to be reported, with the format text it is about. -/
structure Finding where
  format : String
  diagnostic : Diagnostic
deriving DecidableEq

/-- What is wrong with a call, if anything is. -/
def finding? (format : String) (arguments : List Signature) : Option Finding :=
  match check format arguments with
  | .ok () => none
  | .error ⟨problem, span⟩ => some ⟨format, problem.diagnose span⟩

/-- The actions that report findings. -/
def reportActions (findings : List Finding) : List Action :=
  [.start] ++ findings.flatMap (fun finding => [.source finding.format, .emit finding.diagnostic])
    ++ [.summary findings.length, .finish]

/-- The whole report on findings. -/
def report (writer : Writer) (findings : List Finding) : String :=
  String.join (writer.run (reportActions findings))

/-- Puts a report where its form belongs: JSON on standard output; text for a reader
on standard error, with progress on standard output. -/
def Outcome.ofFindings (options : Options) (isTerminal : Bool) (progress : List String)
    (findings : List Finding) : Outcome :=
  let status := if findings.isEmpty then .passed else .failed
  if options.json then
    { status, stdout := report .asJson findings }
  else
    { status
      stdout := unlines progress
      stderr := report (.onTerminal (options.color.enabled isTerminal)) findings }

/-! ## Checking calls -/

def runCheck (options : Options) (isTerminal : Bool) (format : String) (arguments : List String) :
    Outcome :=
  let findings := (finding? format (arguments.map Signature.ofSourceName)).toList
  .ofFindings options isTerminal (if findings.isEmpty then ["OK"] else []) findings

/-- The finding on a call of a batch file, with a note of its place. -/
def Entry.finding? (path : String) (entry : Entry) : Option Finding :=
  (FormatCheck.finding? entry.format entry.arguments).map fun finding =>
    { finding with
      diagnostic := finding.diagnostic.addNote
        ("in " ++ path ++ ", line " ++ Decimal.text entry.line) }

/-- The lines about calls that pass, and the count of all. -/
def batchProgress (verbose : Bool) (path : String) (entries : List Entry) : List String :=
  let passing := entries.filter fun entry => (entry.finding? path).isNone
  (if verbose then passing.map fun entry => "line " ++ Decimal.text entry.line ++ ": OK" else [])
    ++ ["checked " ++ Decimal.text entries.length ++ " call sites: "
      ++ Decimal.text passing.length ++ " passed, "
      ++ Decimal.text (entries.length - passing.length) ++ " failed"]

def runBatch (options : Options) (isTerminal : Bool) (path : String) (text : String) : Outcome :=
  match Batch.parse text with
  | .error error =>
      { status := .failed, stderr := unlines ["error: " ++ path ++ ": " ++ error.message] }
  | .ok entries =>
      .ofFindings options isTerminal (batchProgress options.verbose path entries)
        (entries.filterMap (·.finding? path))

def runExplain (code : String) : Outcome :=
  match Code.ofText? code with
  | some code => { status := .passed, stdout := unlines [code.page] }
  | none =>
      { status := .failed
        stderr := unlines [
          "Unknown error code: " ++ code,
          "",
          "Codes have the format EXXXX where X is a digit.",
          "Examples: E0001, E1001, E2001"] }

/-! ## The program -/

/-- What the program depends on besides its arguments. -/
structure Environment where
  read : Source → Except ReadError String
  isTerminal : Bool

def Invocation.run (invocation : Invocation) (environment : Environment) : Outcome :=
  match invocation.command with
  | .check format arguments =>
      runCheck invocation.options environment.isTerminal format arguments
  | .batch path =>
      match environment.read (.ofPath path) with
      | .ok text => runBatch invocation.options environment.isTerminal path text
      | .error error =>
          { status := .failed
            stderr := unlines ["error: " ++ (Source.ofPath path).errorMessage error] }
  | .explain code => runExplain code
  | .help => { status := .passed, stdout := usage }
  | .version => { status := .passed, stdout := unlines ["fsc " ++ version] }
  | .incomplete operation => { status := .misused, stderr := unlines operation.usageLines }
  | .unknown name => .refusal ("Unknown command: " ++ name)

/-- Runs the program on its command line arguments. -/
def run (environment : Environment) (arguments : List String) : Outcome :=
  match Invocation.ofArguments arguments with
  | .error error => .refusal ("error: " ++ error.message)
  | .ok invocation => invocation.run environment

end FormatCheck
