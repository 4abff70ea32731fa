import LittleMan.Proofs.Text.Trim
import LittleMan.Source.Line
import LittleMan.Source.Token

/-!
# The words of a line

A line's words are its longest runs of characters without a gap, up to the first that opens a
comment. Reading a source as one stream of tokens, where a comment swallows the rest of its line,
gives the same words as cutting it into lines first and each line into runs (`wordLines_tokens`).
-/

namespace LittleMan.Source

open Text (byteLength)

/-- The longest runs of characters without a gap, in a text that starts at byte `start`. -/
def runs (start : Nat) (t : Text) : List Lexeme :=
  match t with
  | [] => []
  | c :: rest =>
    if isGap c then runs (start + c.utf8Size) rest
    else
      let run := c :: rest.takeWhile (!isGap ·)
      ⟨run, start⟩ :: runs (start + byteLength run) (rest.dropWhile (!isGap ·))
termination_by t.length
decreasing_by
  · simp
  · exact Nat.lt_succ_of_le (List.dropWhile_sublist _).length_le

/-- The words of a line that starts at byte `start`. -/
def lineWords (start : Nat) (line : Text) : List Lexeme :=
  (runs start line).takeWhile fun run => !opensComment run.text

/-- The words of each line of a text that starts at byte `offset`. -/
def wordsByLineFrom (offset : Nat) (t : Text) : List (List Lexeme) :=
  ((offset :: startsAfterNewlines offset t).zip (Text.lines t)).map fun line =>
    lineWords line.1 line.2

/-- The words of each line of a source. -/
def wordsByLine (source : Text) : List (List Lexeme) :=
  ((lineStarts source).zip (Text.lines source)).map fun line => lineWords line.1 line.2

variable {offset start : Nat} {c : Char} {t u : Text} {l : Lexeme}

/-! ## Runs -/

@[simp] theorem runs_nil : runs start [] = [] := by
  rw [runs]

theorem runs_gap (gap : isGap c = true) : runs start (c :: t) = runs (start + c.utf8Size) t := by
  rw [runs, if_pos gap]

/-- A run goes on up to a gap or the end. -/
theorem runs_run (shown : u ≠ []) (solid : ∀ c ∈ u, isGap c = false)
    (ends : ∀ c ∈ t.head?, isGap c = true) :
    runs start (u ++ t) = ⟨u, start⟩ :: runs (start + byteLength u) t := by
  obtain ⟨c, rest, rfl⟩ := List.exists_cons_of_ne_nil shown
  have opens : isGap c = false := solid c List.mem_cons_self
  have inside : ∀ d ∈ rest, (!isGap d) = true := by
    intro d member
    rw [solid d (List.mem_cons_of_mem c member)]
    rfl
  obtain ⟨taken, left⟩ := Text.takeWhile_append_of_stops inside fun d head => by simp [ends d head]
  rw [List.cons_append, runs, if_neg (by simp [opens]), taken, left]

theorem opensComment_iff : opensComment t = true ↔ ∃ rest, t = '/' :: '/' :: rest := by
  rw [opensComment, List.isPrefixOf_iff_prefix]
  constructor
  · rintro ⟨rest, rfl⟩
    exact ⟨rest, rfl⟩
  · rintro ⟨rest, rfl⟩
    exact ⟨rest, rfl⟩

/-- Two slashes at the start of a line's first run open a comment, and the line has no words. -/
theorem lineWords_of_opensComment (opens : opensComment t = true) : lineWords start t = [] := by
  obtain ⟨rest, rfl⟩ := opensComment_iff.1 opens
  have solid : isGap '/' = false := by decide
  rw [lineWords, runs, if_neg (by simp [solid])]
  simp [solid, opensComment]

theorem lineWords_gap (gap : isGap c = true) :
    lineWords start (c :: t) = lineWords (start + c.utf8Size) t := by
  rw [lineWords, runs_gap gap, lineWords]

theorem lineWords_run (shown : u ≠ []) (solid : ∀ c ∈ u, isGap c = false)
    (ends : ∀ c ∈ t.head?, isGap c = true) (spoken : opensComment u = false) :
    lineWords start (u ++ t) = ⟨u, start⟩ :: lineWords (start + byteLength u) t := by
  rw [lineWords, runs_run shown solid ends, List.takeWhile_cons, if_pos (by simp [spoken]),
    lineWords]

/-! ## Lines -/

theorem startsAfterNewlines_append (onLine : '\n' ∉ u) :
    startsAfterNewlines offset (u ++ t) = startsAfterNewlines (offset + byteLength u) t := by
  induction u generalizing offset with
  | nil => rfl
  | cons c u ih =>
    rw [List.mem_cons, not_or] at onLine
    simp only [List.cons_append, startsAfterNewlines, if_neg (Ne.symm onLine.1)]
    rw [ih onLine.2, byteLength, Nat.add_assoc]

theorem lines_append {first : Text} {more : List Text} (onLine : '\n' ∉ u)
    (cut : Text.lines t = first :: more) : Text.lines (u ++ t) = (u ++ first) :: more := by
  induction u with
  | nil => exact cut
  | cons c u ih =>
    rw [List.mem_cons, not_or] at onLine
    have rest : Text.pieces '\n' (u ++ t) = (u ++ first) :: more := ih onLine.2
    simp [Text.lines, Text.pieces, Ne.symm onLine.1, rest]

theorem wordsByLineFrom_eq {first : Text} {more : List Text} (cut : Text.lines t = first :: more) :
    wordsByLineFrom offset t = lineWords offset first ::
      ((startsAfterNewlines offset t).zip more).map fun line => lineWords line.1 line.2 := by
  rw [wordsByLineFrom, cut, List.zip_cons_cons, List.map_cons]

/-- What stands before a text on its first line belongs to that line. -/
theorem wordsByLineFrom_append (offset : Nat) (t : Text) (onLine : '\n' ∉ u) : ∃ first more later,
    Text.lines t = first :: more ∧
    wordsByLineFrom (offset + byteLength u) t =
      lineWords (offset + byteLength u) first :: later ∧
    wordsByLineFrom offset (u ++ t) = lineWords offset (u ++ first) :: later := by
  obtain ⟨first, more, cut⟩ := List.exists_cons_of_ne_nil (Text.lines_ne_nil t)
  refine ⟨first, more, _, cut, wordsByLineFrom_eq cut, ?_⟩
  rw [wordsByLineFrom_eq (lines_append onLine cut), startsAfterNewlines_append onLine]

theorem wordsByLineFrom_newline :
    wordsByLineFrom offset ('\n' :: t) = [] :: wordsByLineFrom (offset + 1) t := by
  have size : '\n'.utf8Size = 1 := by decide
  simp [wordsByLineFrom, startsAfterNewlines, Text.lines, Text.pieces, lineWords, size]

/-- The first line of a text starts as the text does, unless that is with a newline. -/
theorem head?_of_lines {first : Text} {more : List Text} (cut : Text.lines t = first :: more) :
    ∀ d ∈ first.head?, d ∈ t.head? ∧ d ≠ '\n' := by
  intro d head
  cases t with
  | nil => cases cut; cases head
  | cons c rest =>
    simp only [Text.lines, Text.pieces] at cut
    split at cut
    next newline => cases cut; cases head
    next other =>
      split at cut <;> cases cut
      all_goals
        cases head
        exact ⟨rfl, other⟩

/-- After the characters that satisfy `p`, a line is at its end or goes on with one that does
not. -/
theorem head?_of_lines_dropWhile {p : Char → Bool} {first : Text} {more : List Text}
    (cut : Text.lines (t.dropWhile p) = first :: more) :
    ∀ d ∈ first.head?, p d = false ∧ d ≠ '\n' := by
  intro d head
  obtain ⟨next, other⟩ := head?_of_lines cut d head
  exact ⟨Text.head?_dropWhile p t d next, other⟩

/-- Of the characters that a comment or a word takes, none ends the line. -/
theorem newline_not_mem_cons_takeWhile {p : Char → Bool} (other : c ≠ '\n')
    (stops : p '\n' = false) : '\n' ∉ c :: t.takeWhile p := by
  intro member
  rcases List.mem_cons.1 member with same | later
  · exact other same.symm
  · have taken := List.all_eq_true.1 (List.all_takeWhile (p := p) (l := t)) _ later
    rw [stops] at taken
    cases taken

/-- Cutting a text off at a character that is no slash keeps a comment open that it opens. -/
theorem opensComment_takeWhile {p : Char → Bool} (slash : p '/' = true) :
    opensComment (c :: t.takeWhile p) = opensComment (c :: t) := by
  cases t with
  | nil => rfl
  | cons d rest =>
    by_cases taken : p d = true
    · simp [opensComment, List.isPrefixOf, taken]
    · have other : d ≠ '/' := by
        rintro rfl
        exact taken slash
      simp [opensComment, List.isPrefixOf, taken, Ne.symm other]

/-- Cutting a text into lines first, and each line into runs, gives the same words as one stream of
tokens does. -/
theorem wordLines_tokensFrom (offset : Nat) (t : Text) :
    wordLines (tokensFrom offset t) = wordsByLineFrom offset t := by
  fun_induction tokensFrom offset t with
  | case1 offset => simp [wordLines, wordsByLineFrom, Text.lines, Text.pieces, lineWords]
  | case2 offset rest ih => rw [wordLines, ih, wordsByLineFrom_newline]
  | case3 offset c rest newline gap ih =>
    have onLine : '\n' ∉ [c] := by simpa using Ne.symm newline
    obtain ⟨first, more, later, -, after, whole⟩ :=
      wordsByLineFrom_append offset rest onLine
    simp only [List.singleton_append, byteLength, Nat.add_zero] at after whole
    rw [ih, after, whole, lineWords_gap gap]
  | case4 offset c rest newline solid opens written ih =>
    have onLine : '\n' ∉ written := newline_not_mem_cons_takeWhile newline rfl
    obtain ⟨first, more, later, cut, after, whole⟩ :=
      wordsByLineFrom_append offset (rest.dropWhile isLineChar) onLine
    -- The comment takes the whole line.
    have ends : first = [] := by
      refine List.head?_eq_none_iff.1 (Option.eq_none_iff_forall_not_mem.2 fun d head => ?_)
      obtain ⟨newline, other⟩ := head?_of_lines_dropWhile cut d head
      exact other (by simpa [isLineChar] using newline)
    have silent : lineWords offset (written ++ first) = [] := by
      apply lineWords_of_opensComment
      rw [ends, List.append_nil, opensComment_takeWhile rfl]
      exact opens
    rw [List.cons_append, List.takeWhile_append_dropWhile] at whole
    rw [wordLines, ih, after, whole, silent, ends]
    simp [lineWords]
  | case5 offset c rest newline solid spoken written ih =>
    have onLine : '\n' ∉ written := newline_not_mem_cons_takeWhile newline rfl
    obtain ⟨first, more, later, cut, after, whole⟩ :=
      wordsByLineFrom_append offset (rest.dropWhile isWordChar) onLine
    have said : lineWords offset (written ++ first) =
        ⟨written, offset⟩ :: lineWords (offset + byteLength written) first := by
      apply lineWords_run
      · exact List.cons_ne_nil c _
      · intro d member
        rcases List.mem_cons.1 member with rfl | later
        · simpa using solid
        · have taken := List.all_eq_true.1 List.all_takeWhile d later
          exact (by simpa [isWordChar] using taken : isGap d = false ∧ d ≠ '\n').1
      · intro d head
        obtain ⟨stops, other⟩ := head?_of_lines_dropWhile cut d head
        simpa [isWordChar, other] using stops
      · rw [opensComment_takeWhile rfl]
        simpa using spoken
    rw [List.cons_append, List.takeWhile_append_dropWhile] at whole
    rw [wordLines, ih, after, whole, said]

/-- One stream of tokens, where a comment takes the rest of its line, has on each line the words
that the line has by itself. -/
theorem wordLines_tokens (source : Text) : wordLines (tokens source) = wordsByLine source :=
  wordLines_tokensFrom 0 source

/-! ## Places -/

/-- The lexeme is a piece of a text that starts at byte `offset`. -/
def OccursFrom (offset : Nat) (t : Text) (l : Lexeme) : Prop :=
  ∃ before after, t = before ++ l.text ++ after ∧ l.start = offset + byteLength before

/-- The lexeme is a piece of the source, and its span is where that piece lies. -/
def Occurs (source : Text) (l : Lexeme) : Prop :=
  ∃ before after, source = before ++ l.text ++ after ∧
    l.span = ⟨byteLength before, byteLength (before ++ l.text)⟩

theorem OccursFrom.behind (found : OccursFrom (offset + byteLength u) t l) :
    OccursFrom offset (u ++ t) l := by
  obtain ⟨before, after, rfl, place⟩ := found
  refine ⟨u ++ before, after, by simp, ?_⟩
  rw [place, Text.byteLength_append, Nat.add_assoc]

theorem occursFrom_of_word_mem (member : .word l ∈ tokensFrom offset t) :
    OccursFrom offset t l := by
  fun_induction tokensFrom offset t with
  | case1 => cases member
  | case2 offset rest ih =>
    have later : .word l ∈ tokensFrom (offset + 1) rest := by simpa using member
    exact OccursFrom.behind (u := ['\n']) (ih later)
  | case3 offset c rest newline gap ih => exact OccursFrom.behind (u := [c]) (ih member)
  | case4 offset c rest newline solid opens written ih =>
    have later : .word l ∈ tokensFrom (offset + byteLength written) (rest.dropWhile isLineChar) := by
      simpa using member
    have found := (ih later).behind
    rwa [List.cons_append, List.takeWhile_append_dropWhile] at found
  | case5 offset c rest newline solid spoken written ih =>
    rcases List.mem_cons.1 member with same | later
    · cases same
      exact ⟨[], rest.dropWhile isWordChar, by simp [written, List.takeWhile_append_dropWhile], rfl⟩
    · have found := (ih later).behind
      rwa [List.cons_append, List.takeWhile_append_dropWhile] at found

theorem word_mem_of_mem_wordLines {line : List Lexeme} {tokens : List Token}
    (onLine : line ∈ wordLines tokens) (member : l ∈ line) : .word l ∈ tokens := by
  fun_induction wordLines tokens generalizing line with
  | case1 =>
    obtain rfl := List.mem_singleton.1 onLine
    cases member
  | case2 start more ih =>
    rcases List.mem_cons.1 onLine with rfl | later
    · cases member
    · exact List.mem_cons_of_mem _ (ih later member)
  | case3 comment more ih => exact List.mem_cons_of_mem _ (ih onLine member)
  | case4 word more none ih => exact absurd none (wordLines_ne_nil more)
  | case5 word more first lines cut ih =>
    rcases List.mem_cons.1 onLine with rfl | later
    · rcases List.mem_cons.1 member with rfl | onFirst
      · exact List.mem_cons_self
      · exact List.mem_cons_of_mem _ (ih (cut ▸ List.mem_cons_self) onFirst)
    · exact List.mem_cons_of_mem _ (ih (cut ▸ List.mem_cons_of_mem first later) member)

/-- Every word that is read is a piece of the source. -/
theorem occurs_of_mem_wordLines {source : Text} {line : List Lexeme}
    (onLine : line ∈ wordLines (tokens source)) (member : l ∈ line) : Occurs source l := by
  obtain ⟨before, after, split, place⟩ :=
    occursFrom_of_word_mem (word_mem_of_mem_wordLines onLine member)
  rw [Nat.zero_add] at place
  refine ⟨before, after, split, ?_⟩
  rw [Lexeme.span, place, Text.byteLength_append]

end LittleMan.Source
