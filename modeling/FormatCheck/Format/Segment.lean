import FormatCheck.Format.Reader
import FormatCheck.Span

/-! # Segments of a format text -/

namespace FormatCheck

/-- A run of plain text, or a specifier. -/
inductive Segment where
  | literal (text : String)
  | specifier (specifier : Specifier)
deriving DecidableEq

def Segment.specifier? : Segment → Option Specifier
  | literal _ => none
  | specifier found => some found

/-- The specifiers among segments, in order. -/
def Segment.specifiers (segments : List (Located Segment)) : List (Located Specifier) :=
  segments.filterMap fun segment => segment.value.specifier?.map (⟨·, segment.span⟩)

/-! ## One step -/

/-- What comes next in a format text: nothing, a segment, or a fault that ends it. -/
inductive Step where
  | done
  | segment (segment : Located Segment) (after : Input)
  | failed (fault : Located Fault)

/-- Reads a specifier after its `%`, or plain text up to the next `%`. -/
def Input.step (input : Input) : Step :=
  match input.rest with
  | [] => .done
  | '%' :: rest =>
      match Reader.specifier ⟨input.offset + '%'.utf8Size, rest⟩ with
      | .ok specifier after => .segment ⟨.specifier specifier, input.offset, after.offset⟩ after
      | .error fault after => .failed ⟨fault, input.offset, after.offset⟩
  | _ =>
      let (run, after) := input.takeWhile (· ≠ '%')
      .segment ⟨.literal (String.ofList run), input.offset, after.offset⟩ after

theorem Input.length_lt_of_step {input after : Input} {segment : Located Segment}
    (h : input.step = .segment segment after) : after.rest.length < input.rest.length := by
  obtain ⟨offset, rest⟩ := input
  match rest with
  | [] => simp [step] at h
  | c :: rest =>
      by_cases hc : c = '%'
      · subst hc
        have hl := (Reader.advances_specifier ⟨offset + '%'.utf8Size, rest⟩).length_le
        simp only [step] at h
        split at h <;> rename_i hx
        · rw [hx] at hl
          cases h
          simpa [Reader.stop, Nat.lt_succ_iff] using hl
        · cases h
      · simp only [step] at h
        split at h
        · simp_all
        · simp_all
        · cases h
          simpa [takeWhile, List.dropWhile_cons, hc, Nat.lt_succ_iff] using
            (List.dropWhile_sublist _).length_le

/-! ## The whole text -/

/-- The segments of a text up to its first fault. -/
structure Reading where
  segments : List (Located Segment)
  fault? : Option (Located Fault)
deriving DecidableEq

def Input.read (input : Input) : Reading :=
  match _h : input.step with
  | .done => ⟨[], none⟩
  | .failed fault => ⟨[], some fault⟩
  | .segment segment after =>
      let ⟨segments, fault?⟩ := after.read
      ⟨segment :: segments, fault?⟩
termination_by input.rest.length
decreasing_by exact Input.length_lt_of_step _h

/-- Reads a format text as far as it is well formed. -/
def Reading.ofText (text : String) : Reading :=
  (Input.ofText text).read

/-- Reads a whole format text; a fault anywhere refuses all of it. -/
def parse (text : String) : Except (Located Fault) (List (Located Segment)) :=
  match Reading.ofText text with
  | ⟨segments, none⟩ => .ok segments
  | ⟨_, some fault⟩ => .error fault

end FormatCheck
