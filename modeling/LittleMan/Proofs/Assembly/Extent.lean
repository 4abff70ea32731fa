import LittleMan.Proofs.Assembly.Lookup
import LittleMan.Proofs.Source.Places
import LittleMan.Proofs.Source.Positions

/-!
# The range of a statement's line

Words are separated by gaps, but the range of a line is trimmed of all white space, and most white
space may stand in a word. So the range that is found for an address holds the statement except for
white space at the start of its first word, and at the end of its last word unless a comment follows
(`range_encompasses`).
-/

namespace LittleMan

namespace Text

variable {c : Char} {t : Text}

/-- White space is the same in upper case. -/
theorem upperChar_of_isBlank (blank : isBlank c = true) : upperChar c = [c] := by
  have each : ∀ range ∈ blankRanges, ∀ n ∈ List.range' range.1 (range.2 + 1 - range.1),
      upperChar (Char.ofNat n) = [Char.ofNat n] := by
    decide +kernel
  obtain ⟨range, member, inside⟩ := List.any_eq_true.1 blank
  simp only [Bool.and_eq_true, decide_eq_true_eq] at inside
  have own := each range member c.toNat (List.mem_range'_1.2 (by omega))
  rwa [Char.ofNat_toNat] at own

theorem upper_of_isBlank (blank : ∀ c ∈ t, isBlank c = true) : upper t = t := by
  induction t with
  | nil => rfl
  | cons c t ih =>
    rw [List.forall_mem_cons] at blank
    have rest : t.flatMap upperChar = t := ih blank.2
    rw [upper, List.flatMap_cons, upperChar_of_isBlank blank.1, rest, List.singleton_append]

end Text

namespace Source

open Text

variable {gap : Text} {c : Char}

theorem isBlank_of_isGap (isGap_c : isGap c = true) : isBlank c = true := by
  have each : [' ', '\t', '\r', '\x0B', '\x0C'].all isBlank = true := by decide
  exact List.all_eq_true.1 each c (by simpa [isGap] using isGap_c)

theorem Blank.white (blank : Blank gap) : White gap := fun c member =>
  isBlank_of_isGap (blank c member)

end Source

namespace Assembly

open Source Statement Text

variable {source text rest gap : Text} {s : Statement} {k start : Nat}

/-- A comment follows the statement on its line, with nothing but gaps in between. -/
def Commented (source : Text) (s : Statement) : Prop :=
  ∃ before gap after, source = before ++ gap ++ '/' :: '/' :: after ∧
    s.span.stop = byteLength before ∧ Blank gap

/-- The range holds the statement, but for white space at the ends of its text. -/
structure Encompasses (source : Text) (s : Statement) (place : Span) : Prop where
  /-- The range starts where the text does without the white space, and reaches to its end or, if a
  comment follows, beyond the statement. -/
  holds : ∃ text shown inner, Marks source s.span text ∧ Trims s.span.start text shown inner ∧
    shown ≠ [] ∧ place.start = inner.start ∧
    (¬Commented source s → place.stop = inner.stop) ∧
    (Commented source s → s.span.stop < place.stop)
  start_eq_iff : place.start = s.span.start ↔
    ∀ word ∈ s.words.head?, ∀ c ∈ word.text.head?, isBlank c = false
  stop_le_iff : s.span.stop ≤ place.stop ↔
    Commented source s ∨ ∀ word ∈ s.words.getLast?, ∀ c ∈ word.text.getLast?, isBlank c = false

/-- A statement on the line that starts at that byte: behind gaps its text, from its first word to its
last, and then nothing that is read. -/
structure Stands (source : Text) (k start : Nat) (gap text rest : Text) (s : Statement) : Prop where
  starts : (lineStarts source)[k]? = some start
  cut : (Text.lines source)[k]? = some (gap ++ text ++ rest)
  blank : Blank gap
  silent : Silent rest
  span_eq : s.span = ⟨start + byteLength gap, start + byteLength (gap ++ text)⟩
  said : lineTexts text = s.words.map Lexeme.text

theorem exists_stands (member : (s, k) ∈ numbered source) :
    ∃ start gap text rest, Stands source k start gap text rest s := by
  obtain ⟨words, at_k, read⟩ := mem_numbered_iff.1 member
  obtain ⟨first, last, head, final, span⟩ := s.span_eq
  obtain ⟨start, gap, text, rest, starts, cut, blank, silent, begins, stops, said⟩ :=
    exists_line_of_words at_k (words_ofWords? read ▸ head) (words_ofWords? read ▸ final)
  rw [← words_ofWords? read] at said
  refine ⟨start, gap, text, rest, starts, cut, blank, silent, ?_, said⟩
  rw [span, ← stops, ← begins]
  rfl

namespace Stands

variable (stands : Stands source k start gap text rest s)

include stands

theorem marks : Marks source s.span text := by
  rw [stands.span_eq]
  refine (isLine_of_getElem? stands.starts stands.cut).marks ?_
  rintro rfl
  have words := stands.said
  simp [Statement.words] at words

/-- The text begins as the first word does. -/
theorem opens_iff (inSource : s ∈ ofSource source) : (∀ c ∈ text.head?, isBlank c = false) ↔
    ∀ word ∈ s.words.head?, ∀ c ∈ word.text.head?, isBlank c = false := by
  obtain ⟨first, last, head, -, span⟩ := s.span_eq
  have inWords := List.mem_of_mem_head? head
  have occurs := (placed_of_mem_ofSource inSource).occurs first inWords
  have shown := (standsAlone_of_mem_words inSource first inWords).shown
  rw [stands.marks.head?_eq occurs shown (congrArg Span.start span).symm, head]
  simp

/-- The text ends as the last word does. -/
theorem closes_iff (inSource : s ∈ ofSource source) : (∀ c ∈ text.getLast?, isBlank c = false) ↔
    ∀ word ∈ s.words.getLast?, ∀ c ∈ word.text.getLast?, isBlank c = false := by
  obtain ⟨first, last, -, final, span⟩ := s.span_eq
  have inWords := List.mem_of_mem_getLast? final
  have occurs := (placed_of_mem_ofSource inSource).occurs last inWords
  have shown := (standsAlone_of_mem_words inSource last inWords).shown
  rw [stands.marks.getLast?_eq occurs shown (congrArg Span.stop span).symm, final]
  simp

/-- What follows on the line is white space unless it is a comment. -/
theorem commented_iff : Commented source s ↔ ¬White rest := by
  obtain ⟨before, after, split, same, -, -, -, opens⟩ :=
    isLine_of_getElem? stands.starts stands.cut
  have stops : s.span.stop = byteLength (before ++ (gap ++ text)) := by
    rw [stands.span_eq, same, byteLength_append before]
  constructor
  · rintro ⟨front, between, back, split', place, blank⟩ white
    have same : before ++ (gap ++ text) ++ (rest ++ after) =
        front ++ (between ++ '/' :: '/' :: back) := by
      rw [← List.append_assoc front, ← split', split]
      simp
    obtain ⟨-, same⟩ := append_inj_of_byteLength same (stops.symm.trans place)
    rcases List.append_eq_append_iff.1 same with ⟨more, rfl, follows⟩ | ⟨more, rfl, follows⟩
    · -- The gaps go on beyond the line.
      cases more with
      | nil =>
        have newline := opens '/' (by simp [follows])
        cases newline
      | cons c more =>
        obtain rfl : c = '\n' := opens c (by simp [follows])
        have solid := blank '\n' (by simp)
        cases solid
    · cases more with
      | nil =>
        rw [List.nil_append] at follows
        have newline := opens '/' (by rw [← follows]; rfl)
        cases newline
      | cons c more =>
        obtain rfl : '/' = c := by simpa using congrArg List.head? follows
        have shown := white '/' (by simp)
        revert shown
        decide
  · intro loud
    rcases stands.silent with none | comment
    · have blank := blank_takeWhile rest
      rw [List.takeWhile_eq_self_iff.2 (List.dropWhile_eq_nil_iff.1 none)] at blank
      exact absurd blank.white loud
    · obtain ⟨more, same⟩ := List.isPrefixOf_iff_prefix.1 comment
      obtain ⟨gaps, blank, rfl⟩ : ∃ gaps, Blank gaps ∧ gaps ++ '/' :: '/' :: more = rest := by
        refine ⟨rest.takeWhile isGap, blank_takeWhile rest, ?_⟩
        have whole := List.takeWhile_append_dropWhile (p := isGap) (l := rest)
        rwa [← same] at whole
      exact ⟨before ++ (gap ++ text), gaps, more ++ after, by simp [split], stops, blank⟩

/-- A mnemonic is more than white space, and so is a statement with one. -/
theorem trimBlanks_ne_nil (known : s.verb.isKnown = true) : trimBlanks text ≠ [] := by
  intro none
  have white : ∀ c ∈ s.instruction.text, isBlank c = true := by
    intro c member
    have inText : s.instruction.text ∈ lineTexts text := by
      rw [stands.said]
      exact List.mem_map_of_mem (by simp [Statement.words])
    exact white_of_trimBlanks none c (mem_of_mem_lineTexts inText c member)
  obtain ⟨m, named⟩ := Verb.isKnown_ofText_iff.1 known
  rw [upper_of_isBlank white] at named
  have shown : m.name.toList.all isBlank = false := by cases m <;> decide
  rw [← named, List.all_eq_true.2 white] at shown
  cases shown

/-- The range of the line encompasses the statement. -/
theorem exists_encompassing (inSource : s ∈ ofSource source) (known : s.verb.isKnown = true) :
    ∃ place, lineSpan? source k = some place ∧ Encompasses source s place := by
  have kept := stands.trimBlanks_ne_nil known
  obtain ⟨inner, trims⟩ : ∃ inner, Trims (start + byteLength gap) text (trimBlanks text) inner :=
    ⟨_, trims_trimBlanks (start + byteLength gap) text⟩
  obtain ⟨place, found, place_start, quiet, loud⟩ :=
    exists_lineSpan?_of_trims stands.starts stands.cut stands.blank.white trims kept
  have starts : s.span.start = start + byteLength gap := congrArg Span.start stands.span_eq
  have stops : s.span.stop = start + byteLength (gap ++ text) := congrArg Span.stop stands.span_eq
  refine ⟨place, found, ⟨text, _, inner, stands.marks, starts ▸ trims, kept, place_start, ?_, ?_⟩,
    ?_, ?_⟩
  · intro none
    exact quiet (by simpa [stands.commented_iff] using none)
  · intro more
    rw [stops]
    exact loud (stands.commented_iff.1 more)
  · rw [← stands.opens_iff inSource, place_start, starts]
    exact trims.start_eq_iff kept
  · rw [← stands.closes_iff inSource, ← trims.stop_eq_iff kept, stands.commented_iff, stops]
    have most := trims.bounds.2.2
    by_cases white : White rest
    · rw [quiet white, byteLength_append]
      simp only [white, not_true, false_or]
      omega
    · have beyond := loud white
      simp only [white, not_false_iff, true_or, iff_true]
      omega

end Stands

/-- The line of a statement's address has a range that encompasses the statement. -/
theorem range_encompasses {options : Options} {object : ObjectFile} {table : SymbolTable}
    {address : Nat} (accepted : (assemble options source).result = .ok object)
    (held : object.symbols = some table) (at_address : (ofSource source)[address]? = some s) :
    table.sourceMap.map SourceMap.source = some source ∧ ∃ line place,
      table.lineOfAddress? address = some line ∧ lineSpan? source line = some place ∧
      Encompasses source s place := by
  have inSource := List.mem_of_getElem? at_address
  have known := known_of_assemble accepted s inSource
  obtain ⟨-, -, symbols⟩ := object_of_assemble accepted
  obtain rfl : symbolTable (some source) (ofSource source) = table := by
    rw [held] at symbols
    split at symbols
    next => exact (Option.some.inj symbols).symm
    next => cases symbols
  rw [← fst_numbered, List.getElem?_map] at at_address
  obtain ⟨⟨_, line⟩, numbered_at, rfl⟩ := Option.map_eq_some_iff.1 at_address
  obtain ⟨start, gap, text, rest, stands⟩ := exists_stands (List.mem_of_getElem? numbered_at)
  obtain ⟨place, found, encompasses⟩ := stands.exists_encompassing inSource known
  refine ⟨rfl, line, place, ?_, found, encompasses⟩
  rw [lineOfAddress?_symbolTable, List.getElem?_map, numbered_at]
  rfl

/-- A statement whose first word begins with a no-break space. -/
def spacedSource : Text := "\u00a0X HLT".toList

/-- The statement, with the places of its words. -/
def spacedStatement : Statement := ⟨some ⟨"\u00a0X".toList, 0⟩, ⟨"HLT".toList, 4⟩, none, []⟩

/-- What the source is assembled to. -/
def spacedObject : ObjectFile :=
  ⟨Memory.empty, 1, some (symbolTable (some spacedSource) (ofSource spacedSource))⟩

theorem assemble_spacedSource :
    (assemble { symbols := true } spacedSource).result = .ok spacedObject := by
  decide +kernel

theorem ofSource_spacedSource : (ofSource spacedSource)[0]? = some spacedStatement := by
  decide +kernel

theorem range_encompasses_spaced :
    (assemble { symbols := true } spacedSource).result = .ok spacedObject ∧
      spacedObject.symbols = some (symbolTable (some spacedSource) (ofSource spacedSource)) ∧
      (ofSource spacedSource)[0]? = some spacedStatement ∧
      ∃ line place, lineSpan? spacedSource line = some place ∧
        Encompasses spacedSource spacedStatement place := by
  obtain ⟨-, line, place, -, found, encompasses⟩ :=
    range_encompasses assemble_spacedSource rfl ofSource_spacedSource
  exact ⟨assemble_spacedSource, rfl, ofSource_spacedSource, line, place, found, encompasses⟩

/-- The range starts with the letter behind the space, and not where the word does. -/
theorem range_misses_space :
    (assemble { symbols := true } spacedSource).result = .ok spacedObject ∧
      ∃ table line place, spacedObject.symbols = some table ∧
        (ofSource spacedSource)[0]? = some spacedStatement ∧
        table.lineOfAddress? 0 = some line ∧ lineSpan? spacedSource line = some place ∧
        spacedStatement.span.start < place.start := by
  refine ⟨assemble_spacedSource, _, 0, ⟨2, 7⟩, rfl, ofSource_spacedSource, ?_, ?_, ?_⟩
  · decide +kernel
  · decide +kernel
  · decide

end Assembly
end LittleMan
