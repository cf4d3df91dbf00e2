import FormatCheck.Proofs.Format.Canonical
import FormatCheck.Proofs.Format.Tiling

/-! # Writing specifiers anew

Specifiers of a well-formed text can be written anew while all else is kept. What is
written is read as it was meant, and what is kept is read as before. -/

namespace FormatCheck

/-- The part of a text that lies in a range. -/
def Span.slice? (span : Span) (cs : List Char) : Option (List Char) := do
  let (_, rest) ← Text.cut? span.start cs
  let (part, _) ← Text.cut? span.length rest
  return part

theorem Span.Holds.slice?_eq {span : Span} {text part : List Char} (h : span.Holds text part) :
    span.slice? text = some part := by
  obtain ⟨front, back, rfl, rfl⟩ := h
  have hfront : Text.cut? (Text.byteLength front) (front ++ (part ++ back)) =
      some (front, part ++ back) :=
    Text.cut?_eq_some_iff.mpr ⟨rfl, rfl⟩
  have hpart : Text.cut? (Text.byteLength part) (part ++ back) = some (part, back) :=
    Text.cut?_eq_some_iff.mpr ⟨rfl, rfl⟩
  simp [slice?, Span.length, hfront, hpart]

/-! ## Revisions -/

/-- A segment of a text, and the specifier that is to be written in its place, if any. -/
structure Revision where
  segment : Located Segment
  specifier? : Option Specifier

namespace Revision

/-- What is written: the new specifier, or the segment as it stands in the text. -/
def chars (text : List Char) (revision : Revision) : List Char :=
  match revision.specifier? with
  | some specifier => specifier.chars
  | none => (revision.segment.span.slice? text).getD []

/-- What is meant. -/
def value (revision : Revision) : Segment :=
  match revision.specifier? with
  | some specifier => .specifier specifier
  | none => revision.segment.value

/-- A new specifier is one that can be written. -/
def Sound (revision : Revision) : Prop :=
  ∀ specifier ∈ revision.specifier?, specifier.Writable

/-- No plain text is written where there was none. -/
theorem isLiteral_segment {revision : Revision} (h : revision.value.IsLiteral) :
    revision.segment.value.IsLiteral := by
  cases hspecifier : revision.specifier? with
  | none => simpa [value, hspecifier] using h
  | some specifier =>
      rw [value, hspecifier] at h
      cases h

end Revision

/-- The text with the revisions made. -/
def reprint (format : String) (revisions : List Revision) : String :=
  String.ofList (revisions.flatMap (Revision.chars format.toList))

/-! ## Reading what is written -/

namespace Chunk

theorem maximal_iff_segments {chunks : List Chunk} :
    Maximal chunks ↔ (chunks.map segment).IsChain fun segment next =>
      ¬(segment.IsLiteral ∧ next.IsLiteral) := by
  simp only [Maximal, List.isChain_map, isLiteral_segment]

/-- Every segment that is read is a chunk of the text. -/
theorem exists_of_parse {format : String} {segments : List (Located Segment)}
    {segment : Located Segment} (h : parse format = .ok segments) (hmem : segment ∈ segments) :
    ∃ chunk : Chunk, segment.value = chunk.segment ∧
      segment.span.slice? format.toList = some chunk.chars := by
  obtain ⟨chunks, htext, -, rfl⟩ := parse_eq_ok_iff.mp h
  obtain ⟨chunk, hvalue, hholds⟩ := holds_located [] [] hmem
  refine ⟨chunk, hvalue, ?_⟩
  apply Span.Holds.slice?_eq
  simpa [htext] using hholds

end Chunk

/-- A revision of a segment that was read is written as a chunk. -/
theorem Revision.Sound.exists_chunk {format : String} {segments : List (Located Segment)}
    {revision : Revision} (hsound : revision.Sound) (h : parse format = .ok segments)
    (hmem : revision.segment ∈ segments) :
    ∃ chunk : Chunk, chunk.chars = revision.chars format.toList ∧
      chunk.segment = revision.value := by
  cases hspecifier : revision.specifier? with
  | some specifier =>
      have hwritable := hsound specifier hspecifier
      refine ⟨specifier.chunk hwritable, ?_, ?_⟩
      · simp [chars, hspecifier, specifier.chars_chunk hwritable]
      · simp [value, hspecifier, specifier.segment_chunk hwritable]
  | none =>
      obtain ⟨chunk, hvalue, hslice⟩ := Chunk.exists_of_parse h hmem
      exact ⟨chunk, by simp [chars, hspecifier, hslice], by simp [value, hspecifier, hvalue]⟩

theorem exists_chunks_of_revisions {text : List Char} {revisions : List Revision}
    (h : ∀ revision ∈ revisions, ∃ chunk : Chunk,
      chunk.chars = revision.chars text ∧ chunk.segment = revision.value) :
    ∃ chunks : List Chunk, Chunk.text chunks = revisions.flatMap (Revision.chars text) ∧
      chunks.map Chunk.segment = revisions.map Revision.value := by
  induction revisions with
  | nil => exact ⟨[], rfl, rfl⟩
  | cons revision revisions ih =>
      obtain ⟨chunk, hchars, hsegment⟩ := h revision (by simp)
      obtain ⟨chunks, htext, hsegments⟩ := ih fun other hother => h other (by simp [hother])
      exact ⟨chunk :: chunks, by simp [hchars, htext], by simp [hsegment, hsegments]⟩

/-- A text with revisions is read as they are meant. -/
theorem parse_reprint {format : String} {segments : List (Located Segment)}
    {revisions : List Revision} (h : parse format = .ok segments)
    (hsegments : revisions.map Revision.segment = segments)
    (hsound : ∀ revision ∈ revisions, revision.Sound) :
    ∃ others, parse (reprint format revisions) = .ok others ∧
      others.map Located.value = revisions.map Revision.value := by
  have hchunk : ∀ revision ∈ revisions, ∃ chunk : Chunk,
      chunk.chars = revision.chars format.toList ∧ chunk.segment = revision.value := by
    intro revision hmem
    apply (hsound revision hmem).exists_chunk h
    rw [← hsegments]
    exact List.mem_map_of_mem hmem
  obtain ⟨chunks, htext, hvalues⟩ := exists_chunks_of_revisions hchunk
  -- Neighbours cannot merge: a run of plain text is written only where there was one.
  have hmax : Chunk.Maximal chunks := by
    obtain ⟨read, -, hread, hlocated⟩ := parse_eq_ok_iff.mp h
    have hseparated := Chunk.separated_located hread 0
    rw [hlocated, ← hsegments, List.isChain_map] at hseparated
    rw [Chunk.maximal_iff_segments, hvalues, List.isChain_map]
    refine hseparated.imp ?_
    intro revision next hapart hliteral
    exact hapart ⟨Revision.isLiteral_segment hliteral.1, Revision.isLiteral_segment hliteral.2⟩
  refine ⟨Chunk.located 0 chunks, parse_eq_ok_iff.mpr ⟨chunks, ?_, hmax, rfl⟩, ?_⟩
  · rw [htext, reprint, String.toList_ofList]
  · rw [Chunk.map_value_located, hvalues]

/-! ## Canonical texts -/

/-- A specifier is written anew as it is, in its canonical form. -/
def Revision.canonical (segment : Located Segment) : Revision :=
  ⟨segment, segment.value.specifier?⟩

/-- The text with every specifier in its canonical form and plain text as it is. -/
def canonicalize (format : String) : Except (Located Fault) String :=
  (parse format).map fun segments => reprint format (segments.map .canonical)

/-- The canonical text of a segment. -/
def Segment.chars : Segment → List Char
  | literal text => text.toList
  | specifier found => found.chars

namespace Revision

@[simp] theorem value_canonical (segment : Located Segment) :
    (canonical segment).value = segment.value := by
  cases hsegment : segment.value <;> simp [canonical, value, Segment.specifier?, hsegment]

theorem chars_canonical {format : String} {segments : List (Located Segment)}
    {segment : Located Segment} (h : parse format = .ok segments) (hmem : segment ∈ segments) :
    (canonical segment).chars format.toList = segment.value.chars := by
  obtain ⟨chunk, hvalue, hslice⟩ := Chunk.exists_of_parse h hmem
  cases chunk with
  | plain text hne hpercent =>
      simp [canonical, chars, hvalue, hslice, Chunk.segment, Chunk.chars, Segment.specifier?,
        Segment.chars]
  | specifier spelling hvalid =>
      simp [canonical, chars, hvalue, Chunk.segment, Segment.specifier?, Segment.chars]

theorem sound_canonical {format : String} {segments : List (Located Segment)}
    {segment : Located Segment} (h : parse format = .ok segments) (hmem : segment ∈ segments) :
    (canonical segment).Sound := by
  intro specifier hspecifier
  apply writable_of_parse h
  apply Segment.mem_values.mpr
  refine ⟨segment, hmem, ?_⟩
  cases hvalue : segment.value <;> simp_all [canonical, Segment.specifier?]

end Revision

/-- The canonical text depends on the segments alone, and not on where they stand. -/
theorem canonicalize_of_parse {format : String} {segments : List (Located Segment)}
    (h : parse format = .ok segments) :
    canonicalize format =
      .ok (String.ofList ((segments.map Located.value).flatMap Segment.chars)) := by
  rw [canonicalize, h, Except.map, reprint, List.flatMap_map, List.flatMap_map]
  rw [List.flatMap_congr fun segment hmem => Revision.chars_canonical h hmem]

/-- A canonical text is read as the text that it was made from. -/
theorem exists_parse_canonicalize {format : String} {segments : List (Located Segment)}
    (h : parse format = .ok segments) :
    ∃ canonical others, canonicalize format = .ok canonical ∧ parse canonical = .ok others ∧
      others.map Located.value = segments.map Located.value := by
  have hsegments : (segments.map Revision.canonical).map Revision.segment = segments := by
    simp [Function.comp_def, Revision.canonical]
  have hsound : ∀ revision ∈ segments.map Revision.canonical, revision.Sound := by
    intro revision hmem
    obtain ⟨segment, hsegment, rfl⟩ := List.mem_map.mp hmem
    exact Revision.sound_canonical h hsegment
  obtain ⟨others, hparse, hvalues⟩ := parse_reprint h hsegments hsound
  refine ⟨_, others, by rw [canonicalize, h]; rfl, hparse, ?_⟩
  rw [hvalues, List.map_map]
  exact List.map_congr_left fun segment _ => Revision.value_canonical segment

end FormatCheck
