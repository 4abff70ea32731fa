import LittleMan.Proofs.Source.Written

/-!
# The words of a line and what stands between them

Where two pieces of a line meet at a gap, the runs of the line are those of the one and then those
of the other (`fields_append`). So gaps may be longer or shorter, and gaps and comments at the end of
a line add no words (`lineTexts_append_silent`). The words of a line can be spelled anew, each in its
place (`lineTexts_respell`).
-/

namespace LittleMan.Source

variable {t u gap line before after word : Text} {words : List Text} {c : Char}

/-- There is nothing but gaps in the text. -/
def Blank (t : Text) : Prop := ∀ c ∈ t, isGap c = true

/-- A run before the text ends where the text begins. -/
def OpensApart (t : Text) : Prop := ∀ c ∈ t.head?, isGap c = true

/-- A run after the text begins where the text ends. -/
def ClosesApart (t : Text) : Prop := ∀ c ∈ t.getLast?, isGap c = true

/-- There is nothing but gaps in the text, or gaps and a comment. -/
def Silent (t : Text) : Prop :=
  t.dropWhile isGap = [] ∨ opensComment (t.dropWhile isGap) = true

instance (t : Text) : Decidable (Blank t) :=
  decidable_of_iff (t.all isGap = true) List.all_eq_true

instance (t : Text) : Decidable (OpensApart t) :=
  decidable_of_iff (t.head?.all isGap = true) (Option.all_eq_true _ _)

instance (t : Text) : Decidable (ClosesApart t) :=
  decidable_of_iff (t.getLast?.all isGap = true) (Option.all_eq_true _ _)

instance (t : Text) : Decidable (Silent t) := inferInstanceAs (Decidable (_ ∨ _))

theorem Blank.opensApart (blank : Blank t) : OpensApart t :=
  fun c head => blank c (List.mem_of_mem_head? head)

theorem Blank.closesApart (blank : Blank t) : ClosesApart t :=
  fun c last => blank c (List.mem_of_mem_getLast? last)

theorem OpensApart.append (apart : OpensApart t) (some : t ≠ []) (u : Text) :
    OpensApart (t ++ u) := by
  obtain ⟨c, rest, rfl⟩ := List.exists_cons_of_ne_nil some
  exact apart

theorem ClosesApart.append (apart : ClosesApart u) (some : u ≠ []) (t : Text) :
    ClosesApart (t ++ u) := by
  rw [ClosesApart, List.getLast?_append, List.getLast?_eq_some_getLast some, Option.some_or,
    ← List.getLast?_eq_some_getLast some]
  exact apart

theorem ClosesApart.of_append (apart : ClosesApart (t ++ u)) : ClosesApart u := by
  intro c last
  refine apart c ?_
  rw [List.getLast?_append, Option.mem_def.1 last]
  rfl

/-! ## Runs -/

/-- The texts of the runs of a line. They do not depend on where the line starts. -/
def fields (line : Text) : List Text := (runs 0 line).map Lexeme.text

theorem texts_runs_eq (start : Nat) (line : Text) :
    (runs start line).map Lexeme.text = fields line := texts_runs start 0 line

/-- The words of a line are its runs up to the first that opens a comment. -/
theorem lineTexts_eq (line : Text) :
    lineTexts line = (fields line).takeWhile fun run => !opensComment run := by
  rw [lineTexts, lineWords, texts_takeWhile (fun run => !opensComment run), fields]

@[simp] theorem fields_nil : fields [] = [] := by simp [fields]

theorem fields_gap (isGap_c : isGap c = true) (t : Text) : fields (c :: t) = fields t := by
  rw [fields, runs_gap isGap_c, texts_runs_eq]

theorem fields_run (shown : u ≠ []) (solid : ∀ c ∈ u, isGap c = false) (apart : OpensApart t) :
    fields (u ++ t) = u :: fields t := by
  rw [fields, runs_run shown solid apart, List.map_cons, texts_runs_eq]

theorem fields_blank_append (blank : Blank gap) (t : Text) : fields (gap ++ t) = fields t := by
  induction gap with
  | nil => rfl
  | cons c gap ih =>
    rw [Blank, List.forall_mem_cons] at blank
    rw [List.cons_append, fields_gap blank.1, ih blank.2]

theorem fields_blank (blank : Blank gap) : fields gap = [] := by
  have whole := fields_blank_append blank []
  rwa [List.append_nil, fields_nil] at whole

theorem blank_takeWhile (line : Text) : Blank (line.takeWhile isGap) :=
  fun c => List.all_eq_true.1 List.all_takeWhile c

theorem fields_dropWhile (line : Text) : fields (line.dropWhile isGap) = fields line := by
  have same := fields_blank_append (blank_takeWhile line) (line.dropWhile isGap)
  rw [List.takeWhile_append_dropWhile] at same
  exact same.symm

/-- From a character that is no gap, a run goes on up to the next gap or the end. -/
theorem run_takeWhile (solid : ¬isGap c = true) (t : Text) :
    (∀ d ∈ c :: t.takeWhile (!isGap ·), isGap d = false) ∧ OpensApart (t.dropWhile (!isGap ·)) := by
  refine ⟨fun d member => ?_, fun d head => ?_⟩
  · rcases List.mem_cons.1 member with rfl | later
    · simpa using solid
    · simpa using List.all_eq_true.1 List.all_takeWhile d later
  · simpa using Text.head?_dropWhile (!isGap ·) t d head

/-- Behind the gaps at its start, a line goes on with its first run. -/
theorem fields_of_dropWhile (opens : line.dropWhile isGap = c :: t) : ¬isGap c = true ∧
    fields (c :: t) = (c :: t.takeWhile (!isGap ·)) :: fields (t.dropWhile (!isGap ·)) ∧
      OpensApart (t.dropWhile (!isGap ·)) := by
  have solid : ¬isGap c = true := by
    simpa using Text.head?_dropWhile isGap line c (by rw [opens]; rfl)
  obtain ⟨runSolid, apart⟩ := run_takeWhile solid t
  have run := fields_run (List.cons_ne_nil _ _) runSolid apart
  rw [List.cons_append, List.takeWhile_append_dropWhile] at run
  exact ⟨solid, run, apart⟩

/-- The runs of two pieces that meet at a gap, or where one of them is empty. -/
theorem fields_append (apart : ClosesApart before ∨ OpensApart after) :
    fields (before ++ after) = fields before ++ fields after := by
  suffices ∀ start, (runs start (before ++ after)).map Lexeme.text =
      (runs start before).map Lexeme.text ++ fields after from this 0
  intro start
  fun_induction runs start before with
  | case1 start => exact texts_runs_eq start after
  | case2 start c rest gap ih =>
    have closes : ClosesApart rest ∨ OpensApart after :=
      apart.imp_left fun closes => closes.of_append (t := [c])
    rw [List.cons_append, runs_gap gap, ih closes]
  | case3 start c rest solid run ih =>
    obtain ⟨runSolid, restApart⟩ := run_takeWhile solid rest
    have split : c :: rest = run ++ rest.dropWhile (!isGap ·) := by
      simp [run, List.takeWhile_append_dropWhile]
    have closes : ClosesApart (rest.dropWhile (!isGap ·)) ∨ OpensApart after :=
      apart.imp_left fun closes => (split ▸ closes).of_append
    have follows : OpensApart (rest.dropWhile (!isGap ·) ++ after) := by
      by_cases none : rest.dropWhile (!isGap ·) = []
      · rw [none, List.append_nil] at split
        rw [none, List.nil_append]
        -- The piece ends in the run, so the other opens apart.
        refine apart.resolve_left fun closes => ?_
        rw [split] at closes
        have last := closes _ (List.getLast?_eq_some_getLast (List.cons_ne_nil _ _))
        rw [runSolid _ (List.getLast_mem _)] at last
        cases last
      · exact restApart.append none after
    rw [split, List.append_assoc, runs_run (List.cons_ne_nil _ _) runSolid follows, List.map_cons,
      ih closes, List.map_cons, List.cons_append]

/-! ## Words -/

@[simp] theorem lineTexts_nil : lineTexts [] = [] := by
  rw [lineTexts_eq, fields_nil, List.takeWhile_nil]

theorem lineTexts_run (alone : StandsAlone word) (apart : OpensApart t) :
    lineTexts (word ++ t) = word :: lineTexts t := by
  rw [lineTexts_eq, fields_run alone.shown alone.not_isGap apart,
    List.takeWhile_cons_of_pos (by simp [alone.spoken]), ← lineTexts_eq]

theorem lineTexts_blank_append (blank : Blank gap) (line : Text) :
    lineTexts (gap ++ line) = lineTexts line := by
  rw [lineTexts_eq, fields_blank_append blank, ← lineTexts_eq]

/-- The words of a line are the same words wherever there is some gap between them. -/
theorem lineTexts_gap (blank : Blank gap) (some : gap ≠ []) (before after : Text) :
    lineTexts (before ++ gap ++ after) =
      (fields before ++ fields after).takeWhile fun run => !opensComment run := by
  rw [lineTexts_eq, fields_append (.inl (blank.closesApart.append some before)),
    fields_append (.inr blank.opensApart), fields_blank blank, List.append_nil]

/-- What follows a part of a line, apart from it, leaves the words of the part where they are. -/
theorem lineTexts_prefix (apart : OpensApart after) (before : Text) :
    lineTexts before <+: lineTexts (before ++ after) := by
  rw [lineTexts_eq, lineTexts_eq, fields_append (.inr apart), List.takeWhile_append]
  split
  next => exact (List.takeWhile_prefix _).trans (List.prefix_append _ _)
  next => exact List.prefix_rfl

theorem lineTexts_of_silent (silent : Silent line) : lineTexts line = [] := by
  rw [lineTexts_eq, ← fields_dropWhile, ← lineTexts_eq]
  rcases silent with none | opens
  · rw [none, lineTexts_nil]
  · rw [lineTexts, lineWords_of_opensComment opens, List.map_nil]

/-- A line without words is silent. -/
theorem silent_of_lineTexts (none : lineTexts line = []) : Silent line := by
  cases rest : line.dropWhile isGap with
  | nil => exact .inl rest
  | cons c rest' =>
    obtain ⟨solid, run, apart⟩ := fields_of_dropWhile rest
    rw [lineTexts_eq, ← fields_dropWhile, rest, run, List.takeWhile_cons] at none
    split at none
    next => cases none
    next opens =>
      rw [opensComment_takeWhile (by decide)] at opens
      exact .inr (by simpa [rest] using opens)

/-- What is silent adds no words, where it stands apart. -/
theorem lineTexts_append_silent (apart : OpensApart after) (silent : Silent after) (line : Text) :
    lineTexts (line ++ after) = lineTexts line := by
  rw [lineTexts_eq, lineTexts_eq, fields_append (.inr apart), List.takeWhile_append]
  split
  next whole =>
    rw [(List.takeWhile_prefix _).eq_of_length whole, ← lineTexts_eq after,
      lineTexts_of_silent silent, List.append_nil]
  next => rfl

/-- A word between two pieces, apart from both, is a word of the line unless the first piece opens a
comment. -/
theorem lineTexts_word (closes : ClosesApart before) (opens : OpensApart after) :
    (∀ word, StandsAlone word → lineTexts (before ++ word ++ after) = lineTexts before) ∨
    ∃ more, ∀ word, StandsAlone word →
      lineTexts (before ++ word ++ after) = lineTexts before ++ word :: more := by
  have split : ∀ word, StandsAlone word → fields (before ++ word ++ after) =
      fields before ++ word :: fields after := by
    intro word alone
    rw [List.append_assoc, fields_append (.inl closes),
      fields_run alone.shown alone.not_isGap opens]
  by_cases whole : ((fields before).takeWhile fun run => !opensComment run).length =
      (fields before).length
  · refine .inr ⟨lineTexts after, fun word alone => ?_⟩
    rw [lineTexts_eq, split word alone, List.takeWhile_append, if_pos whole,
      List.takeWhile_cons_of_pos (by simp [alone.spoken]), ← lineTexts_eq after, lineTexts_eq before,
      (List.takeWhile_prefix _).eq_of_length whole]
  · refine .inl fun word alone => ?_
    rw [lineTexts_eq, split word alone, List.takeWhile_append, if_neg whole, ← lineTexts_eq]

/-! ## Spelling words anew -/

/-- What follows the first run of a line. -/
def afterRun (line : Text) : Text := (line.dropWhile isGap).dropWhile (!isGap ·)

/-- A line with other words in the places of its first words. -/
def respell : List Text → Text → Text
  | [], line => line
  | word :: more, line => line.takeWhile isGap ++ word ++ respell more (afterRun line)

theorem lineTexts_afterRun (said : lineTexts line = word :: words) :
    OpensApart (afterRun line) ∧ lineTexts (afterRun line) = words := by
  rw [lineTexts_eq, ← fields_dropWhile] at said
  rw [afterRun]
  cases rest : line.dropWhile isGap with
  | nil =>
    rw [rest] at said
    simp at said
  | cons c rest' =>
    obtain ⟨solid, run, apart⟩ := fields_of_dropWhile rest
    rw [rest, run, List.takeWhile_cons] at said
    rw [List.dropWhile_cons_of_pos (by simpa using solid), lineTexts_eq]
    split at said
    next => exact ⟨apart, (List.cons.inj said).2⟩
    next => cases said

theorem opensApart_respell (apart : OpensApart line) (few : words.length ≤ (lineTexts line).length) :
    OpensApart (respell words line) := by
  cases words with
  | nil => exact apart
  | cons word more =>
    cases line with
    | nil => simp at few
    | cons c rest =>
      have gap : isGap c = true := apart c rfl
      simp [respell, OpensApart, gap]

/-- The new words are read in the places of as many old ones, and no other words are. -/
theorem lineTexts_respell (alone : ∀ word ∈ words, StandsAlone word)
    (many : words.length = (lineTexts line).length) : lineTexts (respell words line) = words := by
  induction words generalizing line with
  | nil => exact List.length_eq_zero_iff.1 many.symm
  | cons word more ih =>
    rw [List.forall_mem_cons] at alone
    obtain ⟨first, rest, said⟩ := List.exists_cons_of_length_eq_add_one many.symm
    obtain ⟨apart, after⟩ := lineTexts_afterRun said
    have fewer : more.length = (lineTexts (afterRun line)).length := by
      simpa [said, after] using many
    have follows := opensApart_respell apart (Nat.le_of_eq fewer)
    rw [respell, List.append_assoc, lineTexts_blank_append (blank_takeWhile line),
      lineTexts_run alone.1 follows, ih alone.2 fewer]

theorem newline_not_mem_respell (alone : ∀ word ∈ words, StandsAlone word)
    (onLine : '\n' ∉ line) : '\n' ∉ respell words line := by
  induction words generalizing line with
  | nil => exact onLine
  | cons word more ih =>
    rw [List.forall_mem_cons] at alone
    have gap : '\n' ∉ line.takeWhile isGap := fun member =>
      onLine ((List.takeWhile_sublist _).subset member)
    have rest : '\n' ∉ afterRun line := fun member =>
      onLine ((List.dropWhile_sublist _).subset ((List.dropWhile_sublist _).subset member))
    rw [respell, List.mem_append, List.mem_append, not_or, not_or]
    exact ⟨⟨gap, alone.1.newline_not_mem⟩, ih alone.2 rest⟩

end LittleMan.Source
