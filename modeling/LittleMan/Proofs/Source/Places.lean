import LittleMan.Proofs.Source.Layout
import LittleMan.Proofs.Source.Lines
import Mathlib.Data.List.Basic

/-!
# Places that mark a text

A place marks a text if that is the piece of the source which lies there, on one line. So does the
place of every word that is read (`marks_word`), and that from the first word of a line to its last
marks a text with the words of the line (`exists_marks_words`).
-/

namespace LittleMan.Source

open Text (byteLength)

/-- The text is the piece of the source that lies at the place. -/
structure Marks (source : Text) (place : Span) (text : Text) : Prop where
  lies : ∃ before after, source = before ++ text ++ after ∧
    place = ⟨byteLength before, byteLength (before ++ text)⟩
  slice_eq : slice source place = text
  nonempty : place.start < place.stop
  inside : place.stop ≤ byteLength source
  oneLine : '\n' ∉ text

variable {source line text before after : Text} {words : List Lexeme} {l w v : Lexeme}
  {place : Span} {start : Nat}

theorem marks_of_split (split : source = before ++ text ++ after) (some : text ≠ [])
    (oneLine : '\n' ∉ text) :
    Marks source ⟨byteLength before, byteLength (before ++ text)⟩ text := by
  have wide : byteLength text ≠ 0 := fun empty => some (eq_nil_of_byteLength empty)
  refine ⟨⟨before, after, split, rfl⟩, ?_, ?_, ?_, oneLine⟩
  · rw [split, Text.byteLength_append]
    exact slice_split before text after
  · rw [Text.byteLength_append]
    exact Nat.lt_add_of_pos_right (Nat.pos_of_ne_zero wide)
  · rw [split, Text.byteLength_append (before ++ text)]
    exact Nat.le_add_right _ _

theorem marks_word (occurs : Occurs source l) (alone : StandsAlone l.text) :
    Marks source l.span l.text := by
  obtain ⟨before, after, split, place⟩ := occurs
  rw [place]
  exact marks_of_split split alone.shown alone.newline_not_mem

theorem Marks.ne_nil (marks : Marks source place text) : text ≠ [] := by
  rintro rfl
  obtain ⟨before, after, -, rfl⟩ := marks.lies
  have wide := marks.nonempty
  simp at wide

/-- A marked text begins as the word does that starts where it does. -/
theorem Marks.head?_eq (marks : Marks source place text) (occurs : Occurs source w)
    (shown : w.text ≠ []) (starts : w.start = place.start) : text.head? = w.text.head? := by
  have some := marks.ne_nil
  obtain ⟨before, after, split, rfl⟩ := marks.lies
  obtain ⟨before', after', split', span⟩ := occurs
  have start : w.start = byteLength before' := congrArg Span.start span
  rw [split, List.append_assoc, List.append_assoc] at split'
  obtain ⟨-, same⟩ := append_inj_of_byteLength split' (starts.symm.trans start)
  have heads := congrArg List.head? same
  rwa [List.head?_append_of_ne_nil _ some, List.head?_append_of_ne_nil _ shown] at heads

/-- A marked text ends as the word does that stops where it does. -/
theorem Marks.getLast?_eq (marks : Marks source place text) (occurs : Occurs source w)
    (shown : w.text ≠ []) (stops : w.span.stop = place.stop) :
    text.getLast? = w.text.getLast? := by
  have some := marks.ne_nil
  obtain ⟨before, after, split, rfl⟩ := marks.lies
  obtain ⟨before', after', split', span⟩ := occurs
  have stop : w.span.stop = byteLength (before' ++ w.text) := congrArg Span.stop span
  rw [split] at split'
  obtain ⟨same, -⟩ := append_inj_of_byteLength split' (stops.symm.trans stop)
  have lasts := congrArg List.getLast? same
  rwa [List.getLast?_append_of_ne_nil _ some, List.getLast?_append_of_ne_nil _ shown] at lasts

/-- From its first word to its last, a line holds its words and nothing else. -/
theorem exists_extent (onLine : '\n' ∉ line) (first : (lineWords start line).head? = some w)
    (last : (lineWords start line).getLast? = some v) : ∃ before text after,
      line = before ++ text ++ after ∧ Blank before ∧ Silent after ∧
      w.start = start + byteLength before ∧ v.span.stop = start + byteLength (before ++ text) ∧
      lineTexts text = (lineWords start line).map Lexeme.text := by
  fun_induction runs start line generalizing w
  case case1 start => simp at first
  case case2 start c rest gap ih =>
    rw [List.mem_cons, not_or] at onLine
    rw [lineWords_gap gap] at first last ⊢
    obtain ⟨before, text, after, rfl, blank, silent, starts, stops, said⟩ := ih onLine.2 first last
    refine ⟨c :: before, text, after, rfl, ?_, silent, ?_, ?_, said⟩
    · exact List.forall_mem_cons.2 ⟨gap, blank⟩
    · rw [starts, byteLength, Nat.add_assoc]
    · rw [stops, List.cons_append, byteLength, Nat.add_assoc]
  case case3 start c rest solid run ih =>
    obtain ⟨runSolid, apart⟩ := run_takeWhile solid rest
    have split : c :: rest = run ++ rest.dropWhile (!isGap ·) := by
      simp [run, List.takeWhile_append_dropWhile]
    rw [split] at onLine first last ⊢
    rw [List.mem_append, not_or] at onLine
    by_cases spoken : opensComment run = true
    · -- The rest of the line is a comment.
      have silent : lineWords start (run ++ rest.dropWhile (!isGap ·)) = [] := by
        rw [lineWords, runs_run (List.cons_ne_nil _ _) runSolid apart,
          List.takeWhile_cons_of_neg (by simpa using spoken)]
      rw [silent] at first
      cases first
    have alone : StandsAlone run := by
      refine ⟨List.cons_ne_nil _ _, fun d held => ?_, by simpa using spoken⟩
      have other : d ≠ '\n' := by
        rintro rfl
        exact onLine.1 held
      simp [isWordChar, runSolid d held, other]
    rw [lineWords_run alone.shown runSolid apart alone.spoken] at first last ⊢
    cases first
    cases more : lineWords (start + byteLength run) (rest.dropWhile (!isGap ·)) with
    | nil =>
      rw [more] at last
      cases last
      refine ⟨[], run, _, rfl, ?_, ?_, rfl, rfl, ?_⟩
      · exact fun d member => absurd member List.not_mem_nil
      · refine silent_of_lineTexts ?_
        rw [← texts_lineWords (start + byteLength run), more]
        rfl
      · have said := lineTexts_run alone (t := []) fun d head => by cases head
        simpa using said
    | cons next words =>
      rw [more, List.getLast?_cons_cons] at last
      rw [more] at ih
      obtain ⟨before, text, after, rest_eq, blank, silent, -, stops, said⟩ := ih onLine.2 rfl last
      have some : text ≠ [] := by
        rintro rfl
        rw [lineTexts_nil] at said
        cases said
      have opens : OpensApart (before ++ text) := by
        intro d head
        refine apart d ?_
        rw [rest_eq, List.head?_append, head]
        rfl
      refine ⟨[], run ++ (before ++ text), after, ?_, ?_, silent, rfl, ?_, ?_⟩
      · rw [rest_eq]
        simp
      · exact fun d member => absurd member List.not_mem_nil
      · rw [stops, List.nil_append, Text.byteLength_append run, Nat.add_assoc]
      · rw [lineTexts_run alone opens, lineTexts_blank_append blank, said]
        rfl

/-- A line with words has gaps before its first word, and nothing that is read after its last. -/
theorem exists_line_of_words {k : Nat} (at_k : (wordsByLine source)[k]? = some words)
    (first : words.head? = some w) (last : words.getLast? = some v) : ∃ start gap text rest,
      (lineStarts source)[k]? = some start ∧
      (Text.lines source)[k]? = some (gap ++ text ++ rest) ∧ Blank gap ∧ Silent rest ∧
      w.start = start + byteLength gap ∧ v.span.stop = start + byteLength (gap ++ text) ∧
      lineTexts text = words.map Lexeme.text := by
  rw [wordsByLine, List.getElem?_map] at at_k
  obtain ⟨⟨start, line⟩, zipped, rfl⟩ := Option.map_eq_some_iff.1 at_k
  obtain ⟨starts, cut⟩ := List.getElem?_zip_eq_some.1 zipped
  have oneLine : '\n' ∉ line := Text.not_mem_of_mem_pieces (List.mem_of_getElem? cut)
  obtain ⟨gap, text, rest, rfl, blank, silent, starts', stops, said⟩ :=
    exists_extent oneLine first last
  exact ⟨start, gap, text, rest, starts, cut, blank, silent, starts', stops, said⟩

/-- A part of a line that is not empty is marked by its place. -/
theorem IsLine.marks {k : Nat} (isLine : IsLine source k start (before ++ text ++ after))
    (some : text ≠ []) :
    Marks source ⟨start + byteLength before, start + byteLength (before ++ text)⟩ text := by
  obtain ⟨front, back, split, rfl, -, oneLine, -⟩ := isLine
  rw [List.mem_append, List.mem_append, not_or, not_or] at oneLine
  have lies : source = (front ++ before) ++ text ++ (after ++ back) := by simpa using split
  have marks := marks_of_split lies some oneLine.1.2
  rwa [List.append_assoc, Text.byteLength_append front, Text.byteLength_append front] at marks

/-- The place from the first word of a line to its last marks a text with the words of the line. -/
theorem exists_marks_words (member : words ∈ wordsByLine source) (first : words.head? = some w)
    (last : words.getLast? = some v) :
    ∃ text, Marks source ⟨w.start, v.span.stop⟩ text ∧ lineTexts text = words.map Lexeme.text := by
  obtain ⟨k, at_k⟩ := List.mem_iff_getElem?.1 member
  obtain ⟨start, gap, text, rest, starts', cut, -, -, starts, stops, said⟩ :=
    exists_line_of_words at_k first last
  have some : text ≠ [] := by
    rintro rfl
    rw [lineTexts_nil, eq_comm, List.map_eq_nil_iff] at said
    rw [said] at first
    cases first
  rw [starts, stops]
  exact ⟨text, (isLine_of_getElem? starts' cut).marks some, said⟩

end LittleMan.Source
