import LittleMan.Proofs.Source.Written

/-!
# The line of a place

A byte is on the line whose number is that of the newlines before it (`lineAt_split`), so every word
is on the line that it is read from (`OnLine.lineAt_eq`) and before the words of later lines
(`OnLine.stop_le_start`). The piece of a source at the place of a text is that text (`slice_split`).
-/

namespace LittleMan.Source

open Text (byteLength)

variable {source t line before after : Text} {l : Lexeme} {offset start k : Nat}

/-! ## Lines and their starts -/

theorem lt_of_mem_startsAfterNewlines (member : start ∈ startsAfterNewlines offset t) :
    offset < start := by
  induction t generalizing offset with
  | nil => cases member
  | cons c rest ih =>
    have wide := c.utf8Size_pos
    simp only [startsAfterNewlines] at member
    split at member
    next =>
      rcases List.mem_cons.1 member with rfl | later
      · omega
      · have above := ih later
        omega
    next =>
      have above := ih member
      omega

/-- The lines that start at a byte or before it, the first line apart, are as many as the newlines
before it. -/
theorem countP_startsAfterNewlines (offset : Nat) (before after : Text) :
    (startsAfterNewlines offset (before ++ after)).countP (· ≤ offset + byteLength before) =
      before.count '\n' := by
  induction before generalizing offset with
  | nil =>
    refine List.countP_eq_zero.2 fun start member => ?_
    have above := lt_of_mem_startsAfterNewlines member
    rw [byteLength, decide_eq_true_eq]
    omega
  | cons c before ih =>
    have rest := ih (offset + c.utf8Size)
    rw [List.cons_append, startsAfterNewlines, byteLength, ← Nat.add_assoc]
    by_cases newline : c = '\n'
    · rw [if_pos newline, List.countP_cons_of_pos (by simp), rest, newline, List.count_cons_self]
    · rw [if_neg newline, rest, List.count_cons_of_ne newline]

/-- A byte is on the line whose number is that of the newlines before it. -/
theorem lineAt_split (before after : Text) :
    lineAt (lineStarts (before ++ after)) (byteLength before) = before.count '\n' := by
  have count := countP_startsAfterNewlines 0 before after
  rw [Nat.zero_add] at count
  simp [lineAt, lineStarts, count]

theorem eq_nil_of_byteLength (empty : byteLength t = 0) : t = [] := by
  cases t with
  | nil => rfl
  | cons c rest =>
    have wide := c.utf8Size_pos
    rw [byteLength] at empty
    omega

/-- A text is cut at a byte in one way. -/
theorem append_inj_of_byteLength {u t' u' : Text} (same : t ++ u = t' ++ u')
    (long : byteLength t = byteLength t') : t = t' ∧ u = u' := by
  rcases List.append_eq_append_iff.1 same with ⟨more, rfl, rfl⟩ | ⟨more, rfl, rfl⟩
  · rw [Text.byteLength_append] at long
    obtain rfl : more = [] := eq_nil_of_byteLength (by omega)
    simp
  · rw [Text.byteLength_append] at long
    obtain rfl : more = [] := eq_nil_of_byteLength (by omega)
    simp

/-- A line stands where it starts, behind as many newlines as there are lines before it. It reaches
from newline to newline, or to an end of the text. -/
theorem exists_split_of_line (starts : (offset :: startsAfterNewlines offset t)[k]? = some start)
    (cut : (Text.lines t)[k]? = some line) : ∃ before after,
      t = before ++ line ++ after ∧ start = offset + byteLength before ∧ before.count '\n' = k ∧
        (∀ c ∈ before.getLast?, c = '\n') ∧ ∀ c ∈ after.head?, c = '\n' := by
  induction t generalizing offset k line with
  | nil =>
    obtain rfl : k = 0 := by
      have below := (List.getElem?_eq_some_iff.1 cut).1
      simpa [Text.lines, Text.pieces] using below
    cases starts
    cases cut
    exact ⟨[], [], rfl, rfl, rfl, by simp, by simp⟩
  | cons c rest ih =>
    obtain ⟨first, more, lines⟩ := List.exists_cons_of_ne_nil (Text.lines_ne_nil rest)
    by_cases newline : c = '\n'
    · subst newline
      have whole : Text.lines ('\n' :: rest) = [] :: Text.lines rest := rfl
      simp only [startsAfterNewlines, if_true] at starts
      rw [whole] at cut
      cases k with
      | zero =>
        cases starts
        cases cut
        exact ⟨[], '\n' :: rest, rfl, rfl, rfl, by simp, by simp⟩
      | succ k =>
        obtain ⟨before, after, rfl, rfl, count, ends, opens⟩ :=
          ih (by simpa using starts) (by simpa using cut)
        refine ⟨'\n' :: before, after, rfl, ?_, by simp [count], ?_, opens⟩
        · rw [byteLength, Nat.add_assoc]
        · cases before with
          | nil => simp
          | cons d before => simpa using ends
    · have whole : Text.lines (c :: rest) = (c :: first) :: more :=
        lines_append (u := [c]) (by simpa using Ne.symm newline) lines
      simp only [startsAfterNewlines, if_neg newline] at starts
      rw [whole] at cut
      rw [lines] at ih
      cases k with
      | zero =>
        cases starts
        cases cut
        obtain ⟨before, after, split, place, -, -, opens⟩ := ih (k := 0) rfl rfl
        obtain rfl := eq_nil_of_byteLength (t := before) (by omega)
        exact ⟨[], after, by simp [split], rfl, rfl, by simp, opens⟩
      | succ k =>
        have behind : ((offset + c.utf8Size) ::
            startsAfterNewlines (offset + c.utf8Size) rest)[k + 1]? = some start := by
          simpa using starts
        obtain ⟨before, after, rfl, rfl, count, ends, opens⟩ := ih behind (by simpa using cut)
        refine ⟨c :: before, after, rfl, ?_, by simp [newline, count], ?_, opens⟩
        · rw [byteLength, Nat.add_assoc]
        · cases before with
          | nil => cases count
          | cons d before => simpa using ends

/-- The text is the line of that number and starts at that byte: it reaches from newline to newline,
or to an end of the source. -/
def IsLine (source : Text) (k start : Nat) (line : Text) : Prop :=
  ∃ before after, source = before ++ line ++ after ∧ start = byteLength before ∧
    before.count '\n' = k ∧ '\n' ∉ line ∧ (∀ c ∈ before.getLast?, c = '\n') ∧
    ∀ c ∈ after.head?, c = '\n'

theorem isLine_of_getElem? (starts : (lineStarts source)[k]? = some start)
    (cut : (Text.lines source)[k]? = some line) : IsLine source k start line := by
  obtain ⟨before, after, split, place, count, ends, opens⟩ := exists_split_of_line starts cut
  rw [Nat.zero_add] at place
  have oneLine : '\n' ∉ line := Text.not_mem_of_mem_pieces (List.mem_of_getElem? cut)
  exact ⟨before, after, split, place, count, oneLine, ends, opens⟩

/-! ## The words of a line -/

theorem occursFrom_of_mem_runs (member : l ∈ runs start t) : OccursFrom start t l := by
  fun_induction runs start t with
  | case1 => cases member
  | case2 start c rest gap ih => exact OccursFrom.behind (u := [c]) (ih member)
  | case3 start c rest solid run ih =>
    rcases List.mem_cons.1 member with rfl | later
    · exact ⟨[], rest.dropWhile (!isGap ·), by simp [run, List.takeWhile_append_dropWhile], rfl⟩
    · have found := (ih later).behind
      rwa [List.cons_append, List.takeWhile_append_dropWhile] at found

theorem occursFrom_of_mem_lineWords (member : l ∈ lineWords start line) :
    OccursFrom start line l :=
  occursFrom_of_mem_runs ((List.takeWhile_sublist _).subset member)

/-- The characters of the words of a line are characters of the line. -/
theorem mem_of_mem_lineTexts {word : Text} (said : word ∈ lineTexts line) :
    ∀ c ∈ word, c ∈ line := by
  intro c member
  obtain ⟨l, inLine, rfl⟩ := List.mem_map.1 said
  obtain ⟨before, after, rfl, -⟩ := occursFrom_of_mem_lineWords inLine
  simp [member]

/-- The lexeme lies on a line of the source as a whole. -/
def OnLine (source : Text) (k : Nat) (l : Lexeme) : Prop :=
  ∃ start line, (lineStarts source)[k]? = some start ∧ (Text.lines source)[k]? = some line ∧
    OccursFrom start line l

theorem onLine_of_mem_wordsByLine {words : List Lexeme}
    (at_k : (wordsByLine source)[k]? = some words) (member : l ∈ words) : OnLine source k l := by
  rw [wordsByLine, List.getElem?_map] at at_k
  obtain ⟨⟨start, line⟩, zipped, rfl⟩ := Option.map_eq_some_iff.1 at_k
  obtain ⟨starts, cut⟩ := List.getElem?_zip_eq_some.1 zipped
  exact ⟨start, line, starts, cut, occursFrom_of_mem_lineWords member⟩

/-- What lies on a line lies behind as many newlines as there are lines before. -/
theorem OnLine.split (onLine : OnLine source k l) : ∃ before after,
    source = before ++ l.text ++ after ∧ l.start = byteLength before ∧ before.count '\n' = k ∧
      '\n' ∉ l.text := by
  obtain ⟨start, line, starts, cut, before, after, split, place⟩ := onLine
  obtain ⟨front, back, whole, rfl, count, -⟩ := exists_split_of_line starts cut
  have clean : '\n' ∉ line := Text.not_mem_of_mem_pieces (List.mem_of_getElem? cut)
  rw [split, List.mem_append, List.mem_append, not_or, not_or] at clean
  have none : before.count '\n' = 0 := List.count_eq_zero.2 clean.1.1
  refine ⟨front ++ before, after ++ back, ?_, ?_, ?_, clean.1.2⟩
  · rw [whole, split]
    simp
  · rw [place, Nat.zero_add, Text.byteLength_append]
  · rw [List.count_append, count, none, Nat.add_zero]

/-- What lies on a line starts on it. -/
theorem OnLine.lineAt_eq (onLine : OnLine source k l) : lineAt (lineStarts source) l.start = k := by
  obtain ⟨before, after, whole, place, count, -⟩ := onLine.split
  rw [whole, List.append_assoc, place, lineAt_split, count]

/-- What lies on a line ends on it. -/
theorem OnLine.lineAt_stop (onLine : OnLine source k l) :
    lineAt (lineStarts source) l.span.stop = k := by
  obtain ⟨before, after, whole, place, count, clean⟩ := onLine.split
  rw [Lexeme.span, whole, place, ← Text.byteLength_append, lineAt_split, List.count_append, count,
    List.count_eq_zero.2 clean, Nat.add_zero]

theorem lineAt_mono (starts : List Nat) {i j : Nat} (le : i ≤ j) :
    lineAt starts i ≤ lineAt starts j := by
  apply Nat.sub_le_sub_right
  refine List.countP_mono_left fun start _ before => ?_
  rw [decide_eq_true_eq] at before ⊢
  exact Nat.le_trans before le

/-- What lies on a line lies before everything on a later line. -/
theorem OnLine.stop_le_start {l' : Lexeme} {k' : Nat} (onLine : OnLine source k l)
    (later : OnLine source k' l') (below : k < k') : l.span.stop ≤ l'.start := by
  refine Nat.le_of_not_lt fun overlaps => ?_
  have order := lineAt_mono (lineStarts source) (Nat.le_of_lt overlaps)
  rw [onLine.lineAt_stop, later.lineAt_eq] at order
  omega

/-! ## The piece at a place -/

theorem slice_front (word after : Text) : slice (word ++ after) ⟨0, byteLength word⟩ = word := by
  induction word with
  | nil => cases after <;> simp [slice, byteLength]
  | cons c word ih =>
    have wide := c.utf8Size_pos
    rw [List.cons_append, slice, if_neg (Nat.lt_irrefl 0), byteLength, if_pos (by omega),
      Nat.add_sub_cancel_left, ih]

theorem slice_split (before word after : Text) :
    slice (before ++ word ++ after) ⟨byteLength before, byteLength before + byteLength word⟩ =
      word := by
  induction before with
  | nil =>
    rw [byteLength, Nat.zero_add]
    exact slice_front word after
  | cons c before ih =>
    have wide := c.utf8Size_pos
    rw [List.cons_append, List.cons_append, slice, byteLength, if_pos (by omega), Nat.add_assoc,
      Nat.add_sub_cancel_left, Nat.add_sub_cancel_left, ih]

theorem Occurs.slice_eq (occurs : Occurs source l) : slice source l.span = l.text := by
  obtain ⟨before, after, rfl, place⟩ := occurs
  rw [place, Text.byteLength_append]
  exact slice_split before l.text after

end LittleMan.Source
