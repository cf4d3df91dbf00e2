import FormatCheck.CommandLine.Outcome
import FormatCheck.Proofs.Batch.Writing
import FormatCheck.Proofs.Report.Decoding

/-! # Batch files and single calls

A batch file is reported on as if each of its calls were checked alone: the same calls fail,
and what is reported on them is the same but for a note of the line. -/

namespace FormatCheck

/-! ## What is reported -/

namespace Finding

/-- The finding as a document lists it. -/
def listed (finding : Finding) : String × Diagnostic :=
  (finding.format, finding.diagnostic)

/-- The finding as it is shown on a terminal, beside its own format text. -/
def shown (colors : Bool) (finding : Finding) : String :=
  Piece.renderAll colors (finding.diagnostic.pieces (some finding.format))

/-- The finding with one more note, that tells the line it is on. -/
def placed (path : String) (line : Nat) (finding : Finding) : Finding :=
  { finding with
    diagnostic := finding.diagnostic.addNote
      ("in " ++ path ++ ", line " ++ Decimal.text line) }

end Finding

namespace Outcome

variable (options : Options) (isTerminal : Bool) (progress : List String)
  (findings : List Finding)

end Outcome

/-! ## One call -/

namespace CallSite

/-- What is wrong with a call that is checked alone. -/
def finding? (site : CallSite) : Option Finding :=
  FormatCheck.finding? site.format (site.arguments.map fun name => .ofSourceName name.text)

/-- What comes out when a call is checked alone. -/
def outcome (site : CallSite) (options : Options) (environment : Environment) : Outcome :=
  Invocation.run ⟨options, .check site.format (site.arguments.map (·.text))⟩ environment

end CallSite

/-! ## Whole files -/

namespace Batch

/-- The findings on the calls of a file, in the order of the lines. -/
def findings (path : String) (sites : List CallSite) : List Finding :=
  (sites.zipIdx 1).filterMap fun (site, number) => site.finding?.map (·.placed path number)

end Batch

end FormatCheck
