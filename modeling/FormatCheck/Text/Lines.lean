/-! # Lines of a text -/

namespace FormatCheck.Text

/-- A line without the carriage return that its line feed may follow. -/
def dropReturn (line : List Char) : List Char :=
  if line.getLast? = some '\r' then line.dropLast else line

/-- The lines of a text. A line ends with a line feed, or with a carriage return
and a line feed; what follows the last line feed is a line unless it is empty. -/
def lines (cs : List Char) : List (List Char) :=
  let pieces := cs.splitOn '\n'
  pieces.dropLast.map dropReturn ++ (pieces.getLast?.filter (!·.isEmpty)).toList

/-- What stands in joined pieces is the separator or stands in one of them. -/
theorem mem_intercalate {c separator : Char} {pieces : List (List Char)}
    (h : c ∈ [separator].intercalate pieces) : c = separator ∨ ∃ piece ∈ pieces, c ∈ piece := by
  induction pieces with
  | nil => cases h
  | cons piece pieces ih =>
      cases pieces with
      | nil => exact .inr ⟨piece, by simp, by simpa using h⟩
      | cons next pieces =>
          simp only [List.intercalate_cons_cons, List.mem_append, List.mem_singleton] at h
          rcases h with (hpiece | hseparator) | hrest
          · exact .inr ⟨piece, by simp, hpiece⟩
          · exact .inl hseparator
          · rcases ih hrest with hseparator | ⟨found, hfound, hc⟩
            · exact .inl hseparator
            · exact .inr ⟨found, List.mem_cons_of_mem _ hfound, hc⟩

end FormatCheck.Text
