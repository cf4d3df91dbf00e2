import FormatCheck.Call.Problem
import FormatCheck.Format.Segment

/-! # Checking a call

A fault anywhere in the format text comes first. Then the specifiers are followed
from left to right up to the first that has no argument or rejects the one it has.
Only a format text whose specifiers all pass can have arguments left over. -/

namespace FormatCheck

/-- What is wrong with a specifier that reads the argument at a position. -/
def Specifier.problem? (specifier : Specifier) (position : UInt32) (arguments : List Signature) :
    Option Problem :=
  match specifier.conversion.family? with
  | none => none
  | some family =>
      match arguments[position.toNat - 1]? with
      | none => some (.missing (.outOfRange position arguments.length))
      | some argument =>
          (argument.mismatch? family).map (.mismatch specifier position family argument ·)

/-- Follows specifiers up to the first problem. -/
def Tracker.follow (arguments : List Signature) (tracker : Tracker) :
    List (Located Specifier) → Except (Located Problem) Tracker
  | [] => .ok tracker
  | specifier :: rest =>
      match tracker.resolve specifier.value with
      | .error reason => .error ⟨.missing reason, specifier.span⟩
      | .ok (none, after) => after.follow arguments rest
      | .ok (some position, after) =>
          match specifier.value.problem? position arguments with
          | some problem => .error ⟨problem, specifier.span⟩
          | none => after.follow arguments rest

/-- The range of a whole text. -/
def Span.whole (text : String) : Span :=
  ⟨0, Text.byteLength text.toList⟩

/-- Whether a call with a format text and arguments succeeds, and if not, what
fails first. -/
def check (format : String) (arguments : List Signature) : Except (Located Problem) Unit :=
  match parse format with
  | .error fault => .error (fault.map .malformed)
  | .ok segments =>
      match Tracker.start.follow arguments (Segment.specifiers segments) with
      | .error problem => .error problem
      | .ok tracker =>
          if tracker.maxReferenced.toNat < arguments.length then
            .error ⟨.extra arguments.length tracker.maxReferenced, .whole format⟩
          else
            .ok ()

/-- The position that each specifier of a format text resolves to, if the text is
well formed. -/
def positions (format : String) : Except (Located Fault) (List (Except Missing (Option UInt32))) :=
  (parse format).map fun segments =>
    Tracker.start.resolveAll ((Segment.specifiers segments).map Located.value)

end FormatCheck
