import LittleMan.CommandLine.Report
import LittleMan.Proofs.Source.Positions

/-!
# The line of a report

Positions, the ranges of lines and the lines that reports show are worked out in three ways: by the
places of newlines, by cutting between them, and by lines without their ends. They agree about which
piece of the source a line is (`lines_agree`).
-/

namespace LittleMan

namespace Text

variable {t line : Text} {k : Nat}

/-- The carriage return at the end of a line is white space. -/
theorem trimBlanksRight_dropReturn (line : Text) :
    trimBlanksRight (dropReturn line) = trimBlanksRight line := by
  rw [dropReturn]
  split
  next last =>
    obtain ⟨front, rfl⟩ := List.getLast?_eq_some_iff.1 last
    have blank : ∀ c ∈ ['\r'], isBlank c = true := List.all_eq_true.1 (by decide)
    rw [List.dropLast_concat, trimBlanksRight, trimBlanksRight, trimRight_append_of_forall blank]
  next => rfl

/-- Without the white space at its end, a line is the same whether it was cut at newlines alone or
with their carriage returns. A line that is not among the latter is empty. -/
theorem trimBlanksRight_endedLines (cut : (lines t)[k]? = some line) :
    trimBlanksRight ((endedLines t).getD k []) = trimBlanksRight line := by
  obtain ⟨front, last, whole⟩ := (List.eq_nil_or_concat' (lines t)).resolve_left (lines_ne_nil t)
  rw [whole] at cut
  simp only [endedLines, whole, List.getLastD_concat, List.dropLast_concat,
    List.getD_eq_getElem?_getD]
  rcases Nat.lt_or_ge k front.length with earlier | least
  · rw [List.getElem?_append_left earlier] at cut
    rw [List.getElem?_append_left (by simpa using earlier), List.getElem?_map, cut,
      Option.map_some, Option.getD_some, trimBlanksRight_dropReturn]
  · rw [List.getElem?_append_right least] at cut
    rw [List.getElem?_append_right (by simpa using least), List.length_map]
    obtain ⟨here, same⟩ := List.getElem?_eq_some_iff.1 cut
    obtain rfl : last = line := by simpa using same
    have only : k - front.length = 0 := by simpa using here
    rw [only]
    split
    next empty => rw [empty]; rfl
    next => rfl

end Text

namespace CommandLine

open Source Text

variable {source : Text}

/-- What is said about the lines of a source, and where they lie. -/
structure LinesAgree (source : Text) : Prop where
  /-- The lines before a byte are the newlines before it, and its column is the bytes since the last
  of them. -/
  position : ∀ i ≤ byteLength source, position source i =
    ⟨newlines ((bytes source).take i), sinceNewline ((bytes source).take i)⟩
  /-- The search for a line finds one, and it starts at the byte or before. -/
  found : (lineStarts source).Pairwise (· < ·) ∧ ∀ i, 0 < (lineStarts source).countP (· ≤ i) ∧
    ∃ start, (lineStarts source)[(Source.position source i).line]? = some start ∧ start ≤ i ∧
      start + (Source.position source i).column = i
  /-- What lies past the end is on the last line. -/
  past : ∀ i, byteLength source ≤ i → (Source.position source i).line = source.count '\n'
  /-- There is a range for each line, and for no other number. -/
  ranges : ∀ k, (∃ place, lineSpan? source k = some place) ↔ k ≤ source.count '\n'
  /-- The range of a line is that of the line without the white space at its ends. -/
  trimmed : ∀ k place, lineSpan? source k = some place → ∃ start line,
    IsLine source k start line ∧ Trims start line (trimBlanks line) place ∧
      slice source place = trimBlanks line
  /-- The range of a line begins and ends on it. -/
  within : ∀ k place, lineSpan? source k = some place →
    (Source.position source place.start).line = k ∧ (Source.position source place.stop).line = k
  /-- Of every place, a report shows the line without the white space at its end. -/
  shown : ∀ path place, ∃ start line,
    IsLine source (Source.position source place.start).line start line ∧
      (placeLines path source place)[2]? = some
        (Decimal.digits ((Source.position source place.start).line + 1) ++ " | ".toList ++
          trimBlanksRight line)

/-- Positions, ranges of lines and reports agree on every source. -/
theorem lines_agree (source : Text) : LinesAgree source where
  position i inside := position_eq inside
  found := ⟨increasing_lineStarts source, exists_start_of_position source⟩
  past i past := position_line_past past
  ranges k := exists_lineSpan?_iff
  trimmed k place found := by
    obtain ⟨start, line, isLine, trims⟩ := exists_trims_of_lineSpan? found
    exact ⟨start, line, isLine, trims, trims.slice_eq isLine⟩
  within k place found := by
    obtain ⟨start, line, isLine, trims⟩ := exists_trims_of_lineSpan? found
    exact trims.onLine isLine
  shown path place := by
    obtain ⟨start, line, -, cut, isLine⟩ := exists_isLine (lineAt_le source place.start)
    refine ⟨start, line, isLine, ?_⟩
    rw [← trimBlanksRight_endedLines cut]
    rfl

end CommandLine
end LittleMan
