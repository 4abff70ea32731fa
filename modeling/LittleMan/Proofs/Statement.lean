import LittleMan.Proofs.Source.Words
import LittleMan.Statement
import Mathlib.Data.List.Forall2

/-!
# The grammar of statements

A line that has words is one statement: a label, if its first word is followed by others and is no
mnemonic, an instruction, an operand, and words that are ignored (`Reads`). The statements of a
source are those of its lines, in order, and each word of theirs is where its span says
(`ofSource_eq_iff`).
-/

namespace LittleMan

/-! ## Mnemonics -/

namespace Mnemonic

theorem name_injective {m m' : Mnemonic} (same : m.name.toList = m'.name.toList) : m = m' := by
  cases m <;> cases m' <;> first | rfl | exact absurd same (by decide)

/-- A word is a mnemonic when its upper-case form is the mnemonic's name. -/
theorem ofText?_eq_some_iff {t : Text} {m : Mnemonic} :
    ofText? t = some m ↔ Text.upper t = m.name.toList := by
  constructor
  · intro found
    simpa using List.find?_some found
  · intro named
    cases found : ofText? t with
    | none =>
      have other := List.find?_eq_none.1 found m (mem_all m)
      simp [named] at other
    | some m' =>
      have named' : Text.upper t = m'.name.toList := by simpa using List.find?_some found
      rw [name_injective (named'.symm.trans named)]

theorem ofText?_eq_none_iff {t : Text} :
    ofText? t = none ↔ ∀ m : Mnemonic, Text.upper t ≠ m.name.toList := by
  simp only [Option.eq_none_iff_forall_ne_some, ne_eq, ofText?_eq_some_iff]

end Mnemonic

namespace Verb

variable {t name : Text} {m : Mnemonic}

theorem ofText_eq_known_iff : ofText t = known m ↔ Text.upper t = m.name.toList := by
  rw [← Mnemonic.ofText?_eq_some_iff, ofText]
  cases Mnemonic.ofText? t <;> simp

/-- A word that is no mnemonic is kept as it is written. -/
theorem ofText_eq_unknown_iff :
    ofText t = unknown name ↔ name = t ∧ ∀ m : Mnemonic, Text.upper t ≠ m.name.toList := by
  rw [← Mnemonic.ofText?_eq_none_iff, ofText]
  cases Mnemonic.ofText? t <;> simp [eq_comm]

theorem isKnown_ofText_iff :
    (ofText t).isKnown = true ↔ ∃ m : Mnemonic, Text.upper t = m.name.toList := by
  cases word : ofText t with
  | known m => simpa [isKnown] using ⟨m, ofText_eq_known_iff.1 word⟩
  | unknown name => simpa [isKnown] using (ofText_eq_unknown_iff.1 word).2

end Verb

namespace Statement

open Source

/-- A line with these words is this statement. -/
structure Reads (line : List Lexeme) (s : Statement) : Prop where
  /-- The label, the instruction, the operand and the ignored words are the words of the line. -/
  words : s.label.toList ++ s.instruction :: (s.operand.toList ++ s.extra) = line
  /-- The first word is a label if others follow and it is no mnemonic. -/
  labelled : s.label.isSome ↔ 1 < line.length ∧
    ∀ first ∈ line.head?, ∀ m : Mnemonic, Text.upper first.text ≠ m.name.toList
  /-- The first word after the instruction is its operand. -/
  operand : s.operand = none → s.extra = []

theorem reads_of_ofWords? {line : List Lexeme} {s : Statement} (read : ofWords? line = some s) :
    Reads line s := by
  refine ⟨words_ofWords? read, ?_, ?_⟩
  · match line, read with
    | [w], read => cases read; simp
    | first :: second :: rest, read =>
      simp only [ofWords?] at read
      split at read
      next known =>
        cases read
        obtain ⟨m, named⟩ := Verb.isKnown_ofText_iff.1 known
        simp only [List.head?_cons, Option.mem_some, forall_eq']
        simpa using ⟨m, named⟩
      next unknown =>
        cases read
        simpa [Verb.isKnown_ofText_iff] using unknown
  · match line, read with
    | [w], read => cases read; exact fun _ => rfl
    | first :: second :: rest, read =>
      simp only [ofWords?] at read
      split at read
      next => cases read; simp
      next =>
        cases read
        cases rest <;> simp

/-- The words of a line leave one way to read it. -/
theorem ofWords?_of_reads {line : List Lexeme} {s : Statement} (reads : Reads line s) :
    ofWords? line = some s := by
  obtain ⟨rfl, labelled, operand⟩ := reads
  rcases s with ⟨_ | label, instruction, _ | written, extra⟩
  · obtain rfl : extra = [] := operand rfl
    rfl
  · have known : (Verb.ofText instruction.text).isKnown = true := by
      rw [Verb.isKnown_ofText_iff]
      simpa using labelled
    simp [ofWords?, known]
  · obtain rfl : extra = [] := operand rfl
    have unknown : ¬ (Verb.ofText label.text).isKnown = true := by
      rw [Verb.isKnown_ofText_iff]
      simpa using labelled
    simp [ofWords?, unknown]
  · have unknown : ¬ (Verb.ofText label.text).isKnown = true := by
      rw [Verb.isKnown_ofText_iff]
      simpa using labelled
    simp [ofWords?, unknown]

theorem ofWords?_eq_some_iff {line : List Lexeme} {s : Statement} :
    ofWords? line = some s ↔ Reads line s :=
  ⟨reads_of_ofWords?, ofWords?_of_reads⟩

theorem exists_reads {line : List Lexeme} (spoken : line ≠ []) : ∃ s, Reads line s := by
  simp only [← ofWords?_eq_some_iff]
  match line with
  | [w] => exact ⟨_, rfl⟩
  | first :: second :: rest =>
    rw [ofWords?]
    split
    · exact ⟨_, rfl⟩
    · exact ⟨_, rfl⟩

/-- The lines with words are the statements, one each and in the same order. -/
theorem filterMap_ofWords?_eq_iff {lines : List (List Lexeme)} {statements : List Statement} :
    lines.filterMap ofWords? = statements ↔
      List.Forall₂ Reads (lines.filter (· ≠ [])) statements := by
  induction lines generalizing statements with
  | nil => simp [eq_comm]
  | cons line lines ih =>
    by_cases silent : line = []
    · subst silent
      rw [List.filterMap_cons_none rfl, List.filter_cons_of_neg (by simp), ih]
    · obtain ⟨s, reads⟩ := exists_reads silent
      rw [List.filterMap_cons_some (ofWords?_of_reads reads),
        List.filter_cons_of_pos (by simpa using silent), List.forall₂_cons_left_iff]
      constructor
      · rintro rfl
        exact ⟨s, _, reads, ih.1 rfl, rfl⟩
      · rintro ⟨s', rest, reads', others, rfl⟩
        have same := (ofWords?_of_reads reads).symm.trans (ofWords?_of_reads reads')
        rw [ih.2 others, Option.some.inj same]

/-- What is known of a statement of a source by itself: how its instruction is read, and that its
words and the statement as a whole lie where their spans say. -/
structure Placed (source : Text) (s : Statement) : Prop where
  known : ∀ m, s.verb = .known m ↔ Text.upper s.instruction.text = m.name.toList
  unknown : ∀ name, s.verb = .unknown name ↔
    name = s.instruction.text ∧ ∀ m : Mnemonic, Text.upper s.instruction.text ≠ m.name.toList
  occurs : ∀ word ∈ s.words, Occurs source word
  span : ∃ first last, s.words.head? = some first ∧ s.words.getLast? = some last ∧
    s.span = ⟨first.span.start, last.span.stop⟩

theorem span_eq (s : Statement) : ∃ first last,
    s.words.head? = some first ∧ s.words.getLast? = some last ∧
      s.span = ⟨first.span.start, last.span.stop⟩ := by
  have shown : s.words ≠ [] := by simp [Statement.words]
  refine ⟨s.words.head shown, s.words.getLast shown, List.head?_eq_some_head shown,
    List.getLast?_eq_some_getLast shown, ?_⟩
  rw [span, List.headD_eq_head?_getD, List.head?_eq_some_head shown,
    List.getLastD_eq_getLast?, List.getLast?_eq_some_getLast shown]
  rfl

theorem placed_of_mem_ofSource {source : Text} {s : Statement} (member : s ∈ ofSource source) :
    Placed source s := by
  obtain ⟨line, onLine, read⟩ := List.mem_filterMap.1 member
  refine ⟨fun m => Verb.ofText_eq_known_iff, fun name => Verb.ofText_eq_unknown_iff, ?_,
    s.span_eq⟩
  intro word said
  rw [words_ofWords? read] at said
  exact occurs_of_mem_wordLines onLine said

/-- The statements of a source are its lines with words, each cut at the first word that opens a
comment, and they lie in the source where they say. -/
theorem ofSource_eq_iff (source : Text) :
    (∀ statements, ofSource source = statements ↔
      List.Forall₂ Reads ((wordsByLine source).filter (· ≠ [])) statements) ∧
    ∀ s ∈ ofSource source, Placed source s := by
  refine ⟨fun statements => ?_, fun s => placed_of_mem_ofSource⟩
  rw [ofSource, wordLines_tokens]
  exact filterMap_ofWords?_eq_iff

end Statement
end LittleMan
