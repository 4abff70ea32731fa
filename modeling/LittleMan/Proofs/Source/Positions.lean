import LittleMan.Proofs.Source.Lines
import LittleMan.Proofs.Text.Trim

/-!
# Lines and columns of bytes

The lines of a source are counted by the newlines among its bytes, and columns by the bytes since
the last of them (`position_eq`), also for bytes inside a character. The range of a line is what is
left of it without the white space at its ends (`exists_trims_of_lineSpan?`), whatever stands around
the text that it holds (`exists_lineSpan?_of_trims`).
-/

namespace LittleMan

namespace Text

/-- The bytes of the UTF-8 encoding of a text. -/
def bytes (t : Text) : List UInt8 := t.flatMap String.utf8EncodeChar

/-- The byte of a newline. -/
def newlineByte : UInt8 := 10

/-- How many newlines there are among bytes. -/
def newlines (bs : List UInt8) : Nat := bs.count newlineByte

/-- How many bytes there are after the last newline. -/
def sinceNewline (bs : List UInt8) : Nat := (bs.rtakeWhile (· != newlineByte)).length

variable {t : Text} {c : Char} {b : UInt8}

@[simp] theorem bytes_nil : bytes [] = [] := rfl

theorem bytes_append (t u : Text) : bytes (t ++ u) = bytes t ++ bytes u := List.flatMap_append

theorem bytes_cons (c : Char) (t : Text) : bytes (c :: t) = String.utf8EncodeChar c ++ bytes t :=
  List.flatMap_cons

theorem length_bytes (t : Text) : (bytes t).length = byteLength t := by
  induction t with
  | nil => rfl
  | cons c t ih =>
    rw [bytes_cons, List.length_append, String.length_utf8EncodeChar, ih, byteLength]

/-- The bytes of another character are no newlines. -/
theorem newlineByte_not_mem_utf8EncodeChar (other : c ≠ '\n') :
    newlineByte ∉ String.utf8EncodeChar c := by
  have value : c.val.toNat ≠ 10 := fun same => other (Char.ext (UInt32.toNat_inj.1 same))
  have differs : ∀ n, n % 256 ≠ 10 → newlineByte ≠ UInt8.ofNat n := by
    intro n apart same
    rw [← UInt8.toNat_inj, UInt8.toNat_ofNat'] at same
    exact apart same.symm
  simp only [String.utf8EncodeChar]
  generalize c.val.toNat = v at value
  -- The bytes of a character that takes more than one are 128 at least.
  split
  next =>
    rw [List.mem_singleton]
    exact differs v (by omega)
  next =>
    split
    next =>
      simp only [List.mem_cons, List.not_mem_nil, or_false, not_or]
      exact ⟨differs _ (by omega), differs _ (by omega)⟩
    next =>
      split
      next =>
        simp only [List.mem_cons, List.not_mem_nil, or_false, not_or]
        exact ⟨differs _ (by omega), differs _ (by omega), differs _ (by omega)⟩
      next =>
        simp only [List.mem_cons, List.not_mem_nil, or_false, not_or]
        exact ⟨differs _ (by omega), differs _ (by omega), differs _ (by omega),
          differs _ (by omega)⟩

theorem newlineByte_not_mem_bytes (oneLine : '\n' ∉ t) : newlineByte ∉ bytes t := by
  intro member
  obtain ⟨c, held, inside⟩ := List.mem_flatMap.1 member
  refine newlineByte_not_mem_utf8EncodeChar ?_ inside
  rintro rfl
  exact oneLine held

theorem newlines_bytes (t : Text) : newlines (bytes t) = t.count '\n' := by
  induction t with
  | nil => rfl
  | cons c t ih =>
    rw [newlines, bytes_cons, List.count_append, ← newlines, ← newlines, ih]
    by_cases newline : c = '\n'
    · subst newline
      simp [newlines, newlineByte, String.utf8EncodeChar, Nat.add_comm]
    · rw [newlines, List.count_eq_zero.2 (newlineByte_not_mem_utf8EncodeChar newline),
        List.count_cons_of_ne newline, Nat.zero_add]

theorem newlines_append (front : List UInt8) {back : List UInt8} (none : newlineByte ∉ back) :
    newlines (front ++ back) = newlines front := by
  rw [newlines, List.count_append, List.count_eq_zero.2 none, Nat.add_zero, newlines]

/-- A text that ends in a newline, if it is not empty, has bytes that do. -/
theorem getLast?_bytes (ends : ∀ c ∈ t.getLast?, c = '\n') :
    ∀ b ∈ (bytes t).getLast?, b = newlineByte := by
  intro b last
  rcases List.eq_nil_or_concat' t with rfl | ⟨front, c, rfl⟩
  · cases last
  · obtain rfl : c = '\n' := ends c (by simp)
    rw [bytes_append] at last
    simpa [bytes_cons, String.utf8EncodeChar, newlineByte, eq_comm] using last

/-- Bytes without a newline are those after the last newline, if what is before them ends in one. -/
theorem sinceNewline_append {front back : List UInt8} (none : newlineByte ∉ back)
    (ends : ∀ b ∈ front.getLast?, b = newlineByte) :
    sinceNewline (front ++ back) = back.length := by
  have plain : ∀ b ∈ back.reverse, (b != newlineByte) = true := by
    intro b held
    rw [List.mem_reverse] at held
    simp only [bne_iff_ne, ne_eq]
    rintro rfl
    exact none held
  have stops : front.reverse.takeWhile (· != newlineByte) = [] := by
    cases last : front.reverse with
    | nil => rfl
    | cons b rest =>
      have newline := ends b (by rw [← List.head?_reverse, last]; rfl)
      simp [newline]
  rw [sinceNewline, List.rtakeWhile, List.reverse_append, List.takeWhile_append_of_pos plain, stops,
    List.append_nil, List.reverse_reverse]

end Text

namespace Source

open Text

variable {source line before after : Text} {i k start : Nat}

theorem exists_isLine (inside : k ≤ source.count '\n') : ∃ start line,
    (lineStarts source)[k]? = some start ∧ (Text.lines source)[k]? = some line ∧
      IsLine source k start line := by
  have below : k < (Text.lines source).length := by
    rw [length_lines]
    omega
  have cut := List.getElem?_eq_getElem below
  have starts := List.getElem?_eq_getElem ((length_lineStarts source).symm ▸ below)
  exact ⟨_, _, starts, cut, isLine_of_getElem? starts cut⟩

/-- Lines start one after another. -/
theorem increasing_lineStarts (source : Text) : (lineStarts source).Pairwise (· < ·) := by
  suffices ∀ offset t, (startsAfterNewlines offset t).Pairwise (· < ·) from
    List.pairwise_cons.2 ⟨fun start => lt_of_mem_startsAfterNewlines, this 0 source⟩
  intro offset t
  induction t generalizing offset with
  | nil => exact .nil
  | cons c rest ih =>
    simp only [startsAfterNewlines]
    split
    next => exact .cons (fun start => lt_of_mem_startsAfterNewlines) (ih _)
    next => exact ih _

/-! ## The line that holds a byte -/

theorem lineAt_le (source : Text) (i : Nat) :
    lineAt (lineStarts source) i ≤ source.count '\n' := by
  have most : (lineStarts source).countP (· ≤ i) ≤ (lineStarts source).length :=
    List.countP_le_length
  rw [length_lineStarts, length_lines] at most
  rw [lineAt]
  omega

theorem lineAt_le_count (split : source = before ++ after) (inside : i ≤ byteLength before) :
    lineAt (lineStarts source) i ≤ before.count '\n' := by
  have order := lineAt_mono (lineStarts source) inside
  rwa [split, lineAt_split, ← split] at order

theorem count_le_lineAt (split : source = before ++ after) (behind : byteLength before ≤ i) :
    before.count '\n' ≤ lineAt (lineStarts source) i := by
  have order := lineAt_mono (lineStarts source) behind
  rwa [split, lineAt_split, ← split] at order

/-- A byte is not before the start of its line. -/
theorem IsLine.start_le (isLine : IsLine source k start line)
    (onLine : lineAt (lineStarts source) i = k) : start ≤ i := by
  obtain ⟨before, after, split, rfl, count, -, ends, -⟩ := isLine
  refine Nat.le_of_not_lt fun earlier => ?_
  have some : before ≠ [] := by
    rintro rfl
    cases earlier
  obtain ⟨front, last, rfl⟩ := (List.eq_nil_or_concat' before).resolve_left some
  obtain rfl : last = '\n' := ends last (by simp)
  have one : byteLength ['\n'] = 1 := by decide
  rw [byteLength_append] at earlier
  have split' : source = front ++ ('\n' :: line ++ after) := by simpa using split
  have few : lineAt (lineStarts source) i ≤ _ := lineAt_le_count split' (by omega)
  rw [List.count_append, List.count_singleton_self] at count
  omega

/-- A byte is not behind the end of its line, unless it is behind the source. -/
theorem IsLine.le_stop (isLine : IsLine source k start line)
    (onLine : lineAt (lineStarts source) i = k) (inside : i ≤ byteLength source) :
    i ≤ start + byteLength line := by
  obtain ⟨before, after, split, rfl, count, oneLine, -, opens⟩ := isLine
  refine Nat.le_of_not_lt fun later => ?_
  cases after with
  | nil =>
    rw [split, List.append_nil, byteLength_append] at inside
    omega
  | cons c rest =>
    obtain rfl : c = '\n' := opens c rfl
    have one : byteLength ['\n'] = 1 := by decide
    have split' : source = (before ++ line ++ ['\n']) ++ rest := by simpa using split
    have behind : byteLength (before ++ line ++ ['\n']) ≤ i := by
      rw [byteLength_append, byteLength_append]
      omega
    have many := count_le_lineAt split' behind
    rw [List.count_append, List.count_append, List.count_singleton_self] at many
    omega

/-- The bytes from the start of a line to its end are on it. -/
theorem IsLine.lineAt_eq (isLine : IsLine source k start line) (low : start ≤ i)
    (high : i ≤ start + byteLength line) : lineAt (lineStarts source) i = k := by
  obtain ⟨before, after, split, rfl, rfl, oneLine, -, -⟩ := isLine
  have split' : source = before ++ (line ++ after) := by simpa using split
  refine Nat.le_antisymm ?_ (count_le_lineAt split' low)
  have few : lineAt (lineStarts source) i ≤ _ :=
    lineAt_le_count split (high.trans_eq (byteLength_append _ _).symm)
  rwa [List.count_append, List.count_eq_zero.2 oneLine, Nat.add_zero] at few

/-- What precedes a byte on its line are the bytes after the last newline before it. -/
theorem IsLine.take_bytes (isLine : IsLine source k start line) (low : start ≤ i)
    (high : i ≤ start + byteLength line) :
    newlines ((bytes source).take i) = k ∧ sinceNewline ((bytes source).take i) = i - start := by
  obtain ⟨before, after, split, rfl, rfl, oneLine, ends, -⟩ := isLine
  have whole : bytes source = bytes before ++ (bytes line ++ bytes after) := by
    rw [split, bytes_append, bytes_append, List.append_assoc]
  have front : (bytes source).take i =
      bytes before ++ (bytes line).take (i - byteLength before) := by
    have short : i - byteLength before ≤ (bytes line).length := by
      rw [length_bytes]
      omega
    rw [whole, List.take_append, length_bytes, List.take_of_length_le (by rw [length_bytes]; omega),
      List.take_append_of_le_length short]
  have plain : newlineByte ∉ (bytes line).take (i - byteLength before) := fun member =>
    newlineByte_not_mem_bytes oneLine (List.mem_of_mem_take member)
  constructor
  · rw [front, newlines_append _ plain, newlines_bytes]
  · rw [front, sinceNewline_append plain (getLast?_bytes ends), List.length_take, length_bytes]
    omega

/-- The line and the column of a byte count the newlines before it, and the bytes since the last. -/
theorem position_eq (inside : i ≤ byteLength source) : position source i =
    ⟨newlines ((bytes source).take i), sinceNewline ((bytes source).take i)⟩ := by
  obtain ⟨start, line, starts, -, isLine⟩ := exists_isLine (lineAt_le source i)
  have low := isLine.start_le rfl
  obtain ⟨newlines, since⟩ := isLine.take_bytes low (isLine.le_stop rfl inside)
  rw [newlines, since, position]
  simp [List.getD_eq_getElem?_getD, starts]

/-- Neither of the subtractions in a position goes below zero: a line starts at the byte or before,
and the last such line is the one that is found. -/
theorem exists_start_of_position (source : Text) (i : Nat) :
    0 < (lineStarts source).countP (· ≤ i) ∧
      ∃ start, (lineStarts source)[(position source i).line]? = some start ∧ start ≤ i ∧
        start + (position source i).column = i := by
  obtain ⟨start, line, starts, -, isLine⟩ := exists_isLine (lineAt_le source i)
  have low := isLine.start_le rfl
  have column : (position source i).column = i - start := by
    rw [position]
    simp [List.getD_eq_getElem?_getD, starts]
  refine ⟨List.countP_pos_iff.2 ⟨0, List.mem_cons_self, by simp⟩, start, starts, low, ?_⟩
  rw [column]
  omega

/-- What lies past the end is on the last line. -/
theorem position_line_past (past : byteLength source ≤ i) :
    (position source i).line = source.count '\n' :=
  Nat.le_antisymm (lineAt_le source i) (count_le_lineAt (List.append_nil source).symm past)

/-! ## Lines without the white space at their ends -/

/-- There is nothing but white space in the text. -/
def White (t : Text) : Prop := ∀ c ∈ t, isBlank c = true

/-- The place of what is left of a line, which starts at that byte, when the white space at its ends
is cut off. If nothing is left, it is the start of the line. -/
structure Trims (start : Nat) (line shown : Text) (place : Span) : Prop where
  split : ∃ front back, line = front ++ shown ++ back ∧ White front ∧ White back ∧
    (shown = [] → front = []) ∧
    place = ⟨start + byteLength front, start + byteLength (front ++ shown)⟩
  opens : ∀ c ∈ shown.head?, isBlank c = false
  closes : ∀ c ∈ shown.getLast?, isBlank c = false

variable {place : Span} {shown : Text}

theorem lineSpan?_eq_some_iff : lineSpan? source k = some place ↔
    ∃ start line, (lineStarts source)[k]? = some start ∧ (Text.lines source)[k]? = some line ∧
      place = ⟨start + (byteLength (trimBlanksRight line) - byteLength (trimBlanks line)),
        start + byteLength (trimBlanksRight line)⟩ := by
  simp only [lineSpan?, Option.bind_eq_bind, Option.bind_eq_some_iff, Option.pure_def,
    Option.some.injEq, eq_comm (a := place), trimBlanks, trim, trimBlanksRight]
  constructor
  · rintro ⟨start, starts, line, cut, same⟩
    exact ⟨start, line, starts, cut, same⟩
  · rintro ⟨start, line, starts, cut, same⟩
    exact ⟨start, starts, line, cut, same⟩

/-- There is a range for each line, and for no other number. -/
theorem exists_lineSpan?_iff :
    (∃ place, lineSpan? source k = some place) ↔ k ≤ source.count '\n' := by
  simp only [lineSpan?_eq_some_iff]
  constructor
  · rintro ⟨place, start, line, starts, -, -⟩
    have below := (List.getElem?_eq_some_iff.1 starts).1
    rw [length_lineStarts, length_lines] at below
    omega
  · intro inside
    obtain ⟨start, line, starts, cut, -⟩ := exists_isLine inside
    exact ⟨_, start, line, starts, cut, rfl⟩

/-- What is left of a text when it is trimmed, and where. -/
theorem trims_trimBlanks (start : Nat) (line : Text) : Trims start line (trimBlanks line)
    ⟨start + (byteLength (trimBlanksRight line) - byteLength (trimBlanks line)),
      start + byteLength (trimBlanksRight line)⟩ := by
  obtain ⟨front, back, split, right, white, white', empty⟩ := exists_trim isBlank line
  refine ⟨⟨front, back, split, white, white', empty, ?_⟩, head?_trim isBlank line,
    getLast?_trim isBlank line⟩
  rw [trimBlanksRight, trimBlanks, right, byteLength_append, Nat.add_sub_cancel_right]

/-- The range of a line is that of the line without the white space at its ends. -/
theorem exists_trims_of_lineSpan? (found : lineSpan? source k = some place) :
    ∃ start line, IsLine source k start line ∧ Trims start line (trimBlanks line) place := by
  obtain ⟨start, line, starts, cut, rfl⟩ := lineSpan?_eq_some_iff.1 found
  exact ⟨start, line, isLine_of_getElem? starts cut, trims_trimBlanks start line⟩

/-- What is left of a line lies on the line. -/
theorem Trims.bounds (trims : Trims start line shown place) :
    start ≤ place.start ∧ place.start ≤ place.stop ∧ place.stop ≤ start + byteLength line := by
  obtain ⟨front, back, rfl, -, -, -, rfl⟩ := trims.split
  simp only [byteLength_append]
  omega

theorem Trims.onLine (trims : Trims start line shown place) (isLine : IsLine source k start line) :
    (position source place.start).line = k ∧ (position source place.stop).line = k := by
  obtain ⟨low, order, high⟩ := trims.bounds
  exact ⟨isLine.lineAt_eq low (order.trans high), isLine.lineAt_eq (low.trans order) high⟩

theorem Trims.slice_eq (trims : Trims start line shown place)
    (isLine : IsLine source k start line) : slice source place = shown := by
  obtain ⟨front, back, rfl, -, -, -, rfl⟩ := trims.split
  obtain ⟨before, after, rfl, rfl, -⟩ := isLine
  have piece := slice_split (before ++ front) shown (back ++ after)
  simpa [byteLength_append, Nat.add_assoc] using piece

/-! ## A text and what stands around it -/

variable {text rest gap : Text} {inner : Span}

theorem white_of_trimBlanks (none : trimBlanks text = []) : White text := by
  obtain ⟨front, back, split, -, white, white', -⟩ := exists_trim isBlank text
  rw [← trimBlanks, none, List.append_nil] at split
  rw [split]
  exact List.forall_mem_append.2 ⟨white, white'⟩

/-- A text is kept from its start on unless white space stands there. -/
theorem Trims.start_eq_iff (trims : Trims start line shown place) (kept : shown ≠ []) :
    place.start = start ↔ ∀ c ∈ line.head?, isBlank c = false := by
  obtain ⟨front, back, rfl, white, -, -, rfl⟩ := trims.split
  cases front with
  | nil =>
    rw [List.nil_append, List.head?_append_of_ne_nil _ kept]
    simpa [byteLength] using trims.opens
  | cons c front =>
    have wide := c.utf8Size_pos
    have blank := white c List.mem_cons_self
    simp only [byteLength, List.cons_append, List.head?_cons, Option.mem_def, Option.some.injEq,
      forall_eq', blank, Bool.true_eq_false, iff_false]
    omega

/-- A text is kept up to its end unless white space stands there. -/
theorem Trims.stop_eq_iff (trims : Trims start line shown place) (kept : shown ≠ []) :
    place.stop = start + byteLength line ↔ ∀ c ∈ line.getLast?, isBlank c = false := by
  obtain ⟨front, back, rfl, -, white, -, rfl⟩ := trims.split
  rcases List.eq_nil_or_concat' back with rfl | ⟨back, c, rfl⟩
  · rw [List.append_nil, List.getLast?_append_of_ne_nil _ kept]
    simpa using trims.closes
  · have wide := c.utf8Size_pos
    have blank := white c (by simp)
    simp only [byteLength_append, byteLength, ← List.append_assoc, List.getLast?_concat,
      Option.mem_def, Option.some.injEq, forall_eq', blank, Bool.true_eq_false, iff_false]
    omega

/-- There is one place for what is left of a text, if anything is. -/
theorem Trims.place_eq (trims : Trims start line shown place) (kept : shown ≠ []) :
    place = ⟨start + (byteLength (trimBlanksRight line) - byteLength (trimBlanks line)),
      start + byteLength (trimBlanksRight line)⟩ := by
  obtain ⟨front, back, rfl, white, white', -, rfl⟩ := trims.split
  have right : trimBlanksRight (front ++ shown ++ back) = front ++ shown := by
    rw [trimBlanksRight, trimRight_append_of_forall white', trimRight_eq_rdropWhile,
      List.rdropWhile_eq_self_iff]
    intro whole
    have last := trims.closes _ (List.getLast?_eq_some_getLast kept)
    simp [List.getLast_append_of_right_ne_nil _ _ kept, last]
  have both : trimBlanks (front ++ shown ++ back) = shown := by
    rw [trimBlanks, trim, ← trimBlanksRight, right, List.dropWhile_append_of_pos white]
    obtain ⟨c, rest, rfl⟩ := List.exists_cons_of_ne_nil kept
    have first := trims.opens c rfl
    exact List.dropWhile_cons_of_neg (by simp [first])
  rw [right, both, byteLength_append, Nat.add_sub_cancel_right]

theorem Trims.lineSpan?_eq (trims : Trims start line shown place) (kept : shown ≠ [])
    (starts : (lineStarts source)[k]? = some start) (cut : (Text.lines source)[k]? = some line) :
    lineSpan? source k = some place :=
  lineSpan?_eq_some_iff.2 ⟨start, line, starts, cut, trims.place_eq kept⟩

/-- White space around a text makes no difference to what is left of it. -/
theorem Trims.widen (trims : Trims (start + byteLength gap) text shown inner) (kept : shown ≠ [])
    (white : White gap) (silent : White rest) :
    Trims start (gap ++ text ++ rest) shown inner := by
  obtain ⟨front, back, rfl, white', white'', -, rfl⟩ := trims.split
  refine ⟨⟨gap ++ front, back ++ rest, by simp, ?_, ?_, fun none => absurd none kept, ?_⟩,
    trims.opens, trims.closes⟩
  · exact List.forall_mem_append.2 ⟨white, white'⟩
  · exact List.forall_mem_append.2 ⟨white'', silent⟩
  · simp [byteLength_append, Nat.add_assoc]

/-- If more than white space follows a text, what is left reaches beyond the text. -/
theorem Trims.extend (trims : Trims (start + byteLength gap) text shown inner) (kept : shown ≠ [])
    (white : White gap) (loud : ¬White rest) : ∃ shown' place,
      Trims start (gap ++ text ++ rest) shown' place ∧ shown' ≠ [] ∧ place.start = inner.start ∧
        start + byteLength (gap ++ text) < place.stop := by
  obtain ⟨front, back, rfl, white', -, -, rfl⟩ := trims.split
  obtain ⟨front', behind, split, right, -, white'', -⟩ := exists_trim isBlank rest
  rw [← right] at split
  have more : trimRight isBlank rest ≠ [] := by
    intro none
    rw [none, List.nil_append] at split
    exact loud (split ▸ white'')
  have wide : byteLength (trimRight isBlank rest) ≠ 0 :=
    fun zero => more (eq_nil_of_byteLength zero)
  refine ⟨shown ++ back ++ trimRight isBlank rest,
    ⟨start + byteLength (gap ++ front),
      start + byteLength (gap ++ front ++ (shown ++ back ++ trimRight isBlank rest))⟩,
    ⟨⟨gap ++ front, behind, ?_, ?_, white'', ?_, rfl⟩, ?_, ?_⟩, by simp [kept], ?_, ?_⟩
  · nth_rewrite 1 [split]
    simp
  · exact List.forall_mem_append.2 ⟨white, white'⟩
  · simp [kept]
  · rw [List.append_assoc, List.head?_append_of_ne_nil _ kept]
    exact trims.opens
  · rw [List.getLast?_append_of_ne_nil _ more]
    exact getLast?_trimRight isBlank rest
  · simp only [byteLength_append, Nat.add_assoc]
  · simp only [byteLength_append]
    omega

/-- The range of a line starts where a text on it does without white space. It ends there too unless
something else follows. -/
theorem exists_lineSpan?_of_trims (starts : (lineStarts source)[k]? = some start)
    (cut : (Text.lines source)[k]? = some (gap ++ text ++ rest)) (white : White gap)
    (trims : Trims (start + byteLength gap) text shown inner) (kept : shown ≠ []) :
    ∃ place, lineSpan? source k = some place ∧ place.start = inner.start ∧
      (White rest → place.stop = inner.stop) ∧
      (¬White rest → start + byteLength (gap ++ text) < place.stop) := by
  by_cases silent : White rest
  · have found := (trims.widen kept white silent).lineSpan?_eq kept starts cut
    exact ⟨inner, found, rfl, fun _ => rfl, fun loud => absurd silent loud⟩
  · obtain ⟨shown', place, trims', kept', start_eq, beyond⟩ := trims.extend kept white silent
    have found := trims'.lineSpan?_eq kept' starts cut
    exact ⟨place, found, start_eq, fun white' => absurd white' silent, fun _ => beyond⟩

end Source
end LittleMan
