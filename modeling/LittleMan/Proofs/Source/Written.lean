import LittleMan.Proofs.Source.Words

/-!
# Sources written from words

Words that can stand by themselves, with a space between neighbours on a line and a newline between
lines, are read back as they were written (`texts_wordsByLine_written`). The words that are read of
any source can stand by themselves (`standsAlone_of_mem_wordsByLine`).
-/

namespace LittleMan

namespace Text

variable {separator : Char} {t piece : Text} {ts : List Text}

/-- A piece of a text does not hold the separator. -/
theorem not_mem_of_mem_pieces (member : piece ∈ pieces separator t) : separator ∉ piece := by
  induction t generalizing piece with
  | nil =>
    obtain rfl := List.mem_singleton.1 member
    exact List.not_mem_nil
  | cons c rest ih =>
    obtain ⟨first, more, cut⟩ := List.exists_cons_of_ne_nil (pieces_ne_nil separator rest)
    rw [cut] at ih
    simp only [pieces, cut] at member
    split at member
    next =>
      rcases List.mem_cons.1 member with rfl | later
      · exact List.not_mem_nil
      · exact ih later
    next other =>
      rcases List.mem_cons.1 member with rfl | later
      · have clean : separator ∉ first := ih List.mem_cons_self
        simp [Ne.symm other, clean]
      · exact ih (List.mem_cons_of_mem _ later)

theorem pieces_append (clean : separator ∉ piece) (t : Text) :
    pieces separator (piece ++ separator :: t) = piece :: pieces separator t := by
  induction piece with
  | nil => simp [pieces]
  | cons c piece ih =>
    rw [List.mem_cons, not_or] at clean
    rw [List.cons_append, pieces, if_neg (Ne.symm clean.1), ih clean.2]

theorem pieces_of_not_mem (clean : separator ∉ piece) : pieces separator piece = [piece] := by
  induction piece with
  | nil => rfl
  | cons c piece ih =>
    rw [List.mem_cons, not_or] at clean
    rw [pieces, if_neg (Ne.symm clean.1), ih clean.2]

/-- Texts that were joined are the pieces again. -/
theorem pieces_join (some : ts ≠ []) (clean : ∀ t ∈ ts, separator ∉ t) :
    pieces separator (join [separator] ts) = ts := by
  induction ts with
  | nil => exact absurd rfl some
  | cons t more ih =>
    rw [List.forall_mem_cons] at clean
    cases more with
    | nil => exact pieces_of_not_mem clean.1
    | cons next more =>
      have joined : join [separator] (t :: next :: more) =
          t ++ separator :: join [separator] (next :: more) := by
        simp [join]
      rw [joined, pieces_append clean.1, ih (List.cons_ne_nil _ _) clean.2]

end Text

namespace Source

variable {word line : Text} {words : List Text} {l : Lexeme}

/-- A word that is read as itself wherever it stands on a line. -/
structure StandsAlone (word : Text) : Prop where
  shown : word ≠ []
  solid : ∀ c ∈ word, isWordChar c = true
  spoken : opensComment word = false

instance (word : Text) : Decidable (StandsAlone word) :=
  decidable_of_iff (word ≠ [] ∧ word.all isWordChar = true ∧ opensComment word = false)
    ⟨fun ⟨shown, solid, spoken⟩ => ⟨shown, List.all_eq_true.1 solid, spoken⟩,
      fun ⟨shown, solid, spoken⟩ => ⟨shown, List.all_eq_true.2 solid, spoken⟩⟩

theorem StandsAlone.not_isGap (alone : StandsAlone word) : ∀ c ∈ word, isGap c = false := by
  intro c member
  have solid := alone.solid c member
  simp only [isWordChar, Bool.and_eq_true, Bool.not_eq_true'] at solid
  exact solid.1

theorem StandsAlone.newline_not_mem (alone : StandsAlone word) : '\n' ∉ word :=
  fun member => absurd (alone.solid '\n' member) (by decide)

/-- The texts of the words of a line. They do not depend on where the line starts. -/
def lineTexts (line : Text) : List Text := (lineWords 0 line).map Lexeme.text

theorem texts_runs (start start' : Nat) (t : Text) :
    (runs start t).map Lexeme.text = (runs start' t).map Lexeme.text := by
  fun_induction runs start t generalizing start' with
  | case1 => rw [runs_nil]
  | case2 start c rest gap ih => rw [runs_gap gap, ih]
  | case3 start c rest solid run ih =>
    rw [runs, if_neg solid]
    simp only [List.map_cons]
    rw [ih]

theorem texts_takeWhile (p : Text → Bool) (ls : List Lexeme) :
    (ls.takeWhile fun l => p l.text).map Lexeme.text = (ls.map Lexeme.text).takeWhile p := by
  rw [List.takeWhile_map]
  rfl

theorem texts_lineWords (start : Nat) (line : Text) :
    (lineWords start line).map Lexeme.text = lineTexts line := by
  rw [lineTexts, lineWords, lineWords, texts_takeWhile (fun t => !opensComment t),
    texts_takeWhile (fun t => !opensComment t), texts_runs start 0]

theorem texts_wordsByLine (source : Text) :
    (wordsByLine source).map (·.map Lexeme.text) = (Text.lines source).map lineTexts := by
  have each : (wordsByLine source).map (·.map Lexeme.text) =
      (((lineStarts source).zip (Text.lines source)).map Prod.snd).map lineTexts := by
    simp only [wordsByLine, List.map_map]
    exact List.map_congr_left fun line _ => texts_lineWords line.1 line.2
  rw [each, List.map_snd_zip (Nat.le_of_eq (length_lineStarts source).symm)]

/-! ## Writing -/

/-- A line with these words, one space between neighbours. -/
def writtenLine (words : List Text) : Text := Text.join [' '] words

/-- The lines of these words, with newlines between them. -/
def written (lines : List (List Text)) : Text := Text.join ['\n'] (lines.map writtenLine)

theorem writtenLine_cons (word next : Text) (more : List Text) :
    writtenLine (word :: next :: more) = word ++ ' ' :: writtenLine (next :: more) := by
  simp [writtenLine, Text.join]

@[simp] theorem lineWords_nil (start : Nat) : lineWords start [] = [] := by
  simp [lineWords]

theorem lineWords_writtenLine (start : Nat) (alone : ∀ word ∈ words, StandsAlone word) :
    (lineWords start (writtenLine words)).map Lexeme.text = words := by
  induction words generalizing start with
  | nil => simp [writtenLine, Text.join]
  | cons word more ih =>
    rw [List.forall_mem_cons] at alone
    obtain ⟨first, others⟩ := alone
    cases more with
    | nil =>
      have run : lineWords start (word ++ []) = [⟨word, start⟩] := by
        rw [lineWords_run first.shown first.not_isGap (by simp) first.spoken, lineWords_nil]
      rw [List.append_nil] at run
      simp [writtenLine, Text.join, run]
    | cons next more =>
      rw [writtenLine_cons, lineWords_run first.shown first.not_isGap (by simp [isGap]) first.spoken,
        lineWords_gap (by decide), List.map_cons, ih _ others]

theorem newline_not_mem_writtenLine (alone : ∀ word ∈ words, StandsAlone word) :
    '\n' ∉ writtenLine words := by
  induction words with
  | nil => exact List.not_mem_nil
  | cons word more ih =>
    rw [List.forall_mem_cons] at alone
    obtain ⟨first, others⟩ := alone
    cases more with
    | nil => exact first.newline_not_mem
    | cons next more =>
      rw [writtenLine_cons, List.mem_append, List.mem_cons, not_or, not_or]
      exact ⟨first.newline_not_mem, by decide, ih others⟩

/-- Lines of words are read back as they were written. -/
theorem texts_wordsByLine_written {lines : List (List Text)} (some : lines ≠ [])
    (alone : ∀ line ∈ lines, ∀ word ∈ line, StandsAlone word) :
    (wordsByLine (written lines)).map (·.map Lexeme.text) = lines := by
  have cut : Text.lines (written lines) = lines.map writtenLine := by
    refine Text.pieces_join (by simpa using some) fun line member => ?_
    obtain ⟨words, given, rfl⟩ := List.mem_map.1 member
    exact newline_not_mem_writtenLine (alone words given)
  have same : ∀ words ∈ lines, (lineTexts ∘ writtenLine) words = id words :=
    fun words given => lineWords_writtenLine 0 (alone words given)
  rw [texts_wordsByLine, cut, List.map_map, List.map_congr_left same, List.map_id]

/-! ## The words of any source -/

theorem runs_solid {start : Nat} {t : Text} (member : l ∈ runs start t) :
    l.text ≠ [] ∧ ∀ c ∈ l.text, c ∈ t ∧ isGap c = false := by
  fun_induction runs start t with
  | case1 => cases member
  | case2 start c rest gap ih =>
    obtain ⟨shown, solid⟩ := ih member
    exact ⟨shown, fun d held => ⟨List.mem_cons_of_mem _ (solid d held).1, (solid d held).2⟩⟩
  | case3 start c rest first run ih =>
    rcases List.mem_cons.1 member with rfl | later
    · refine ⟨List.cons_ne_nil _ _, fun d held => ?_⟩
      rcases List.mem_cons.1 held with rfl | taken
      · exact ⟨List.mem_cons_self, by simpa using first⟩
      · have solid := List.all_eq_true.1 List.all_takeWhile d taken
        exact ⟨List.mem_cons_of_mem _ ((List.takeWhile_sublist _).subset taken), by simpa using solid⟩
    · obtain ⟨shown, solid⟩ := ih later
      refine ⟨shown, fun d held => ⟨?_, (solid d held).2⟩⟩
      exact List.mem_cons_of_mem _ ((List.dropWhile_sublist _).subset (solid d held).1)

theorem standsAlone_of_mem_lineWords {start : Nat} (onLine : '\n' ∉ line)
    (member : l ∈ lineWords start line) : StandsAlone l.text := by
  have run := (List.takeWhile_sublist _).subset member
  obtain ⟨shown, solid⟩ := runs_solid run
  refine ⟨shown, fun c held => ?_, ?_⟩
  · have other : c ≠ '\n' := by
      rintro rfl
      exact onLine (solid '\n' held).1
    simp [isWordChar, (solid c held).2, other]
  · simpa using List.all_eq_true.1 List.all_takeWhile l member

/-- Every word that is read can stand by itself. -/
theorem standsAlone_of_mem_wordsByLine {source : Text} {words : List Lexeme}
    (onLine : words ∈ wordsByLine source) (member : l ∈ words) : StandsAlone l.text := by
  obtain ⟨⟨start, line⟩, cut, rfl⟩ := List.mem_map.1 onLine
  exact standsAlone_of_mem_lineWords (Text.not_mem_of_mem_pieces (List.of_mem_zip cut).2) member

end Source
end LittleMan
