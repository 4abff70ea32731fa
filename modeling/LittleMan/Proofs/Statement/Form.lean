import LittleMan.Proofs.Source.Written
import LittleMan.Proofs.Statement

/-!
# What statements say

The form of a statement is its label, its instruction and its operand, without their places and
without the words that are ignored. It comes from the words of one line (`forms_ofSource`). Forms that
can be read back are written one a line, and reading that source gives statements of these forms and
no others (`forms_ofSource_written`). The statements of every source have such forms
(`readable_form`).
-/

namespace LittleMan

/-- What a statement says, wherever it stands. -/
structure Form where
  label : Option Text
  verb : Verb
  operand : Option Text
deriving DecidableEq, Repr

namespace Form

/-- The words of a form: its label, its instruction and its operand, those that it has. -/
def words (f : Form) : List Text := f.label.toList ++ f.verb.text :: f.operand.toList

/-- The words of the form are read as the form, on a line of their own. -/
structure Readable (f : Form) : Prop where
  alone : ∀ word ∈ f.words, Source.StandsAlone word
  label : ∀ label, f.label = some label → (Verb.ofText label).isKnown = false
  verb : Verb.ofText f.verb.text = f.verb
  /-- Of two words or more, the first is a label unless it is a mnemonic. -/
  unlabelled : f.label = none → f.operand ≠ none → f.verb.isKnown = true

/-- The form of a line with these words. -/
def ofTexts? : List Text → Option Form
  | [] => none
  | [instruction] => some ⟨none, Verb.ofText instruction, none⟩
  | first :: second :: rest =>
    if (Verb.ofText first).isKnown then some ⟨none, Verb.ofText first, some second⟩
    else some ⟨some first, Verb.ofText second, rest.head?⟩

end Form

namespace Verb

theorem ofText_name (m : Mnemonic) : ofText m.name.toList = known m := by
  rw [ofText_eq_known_iff]
  cases m <;> decide

/-- A word that stands for an instruction does so again when it is shown. -/
theorem ofText_text (t : Text) : ofText (ofText t).text = ofText t := by
  cases word : ofText t with
  | known m => exact ofText_name m
  | unknown name =>
    obtain ⟨rfl, -⟩ := ofText_eq_unknown_iff.1 word
    exact word

end Verb

namespace Mnemonic

theorem standsAlone_name (m : Mnemonic) : Source.StandsAlone m.name.toList := by
  have shown : m.name.toList ≠ [] := by cases m <;> decide
  have solid : m.name.toList.all Source.isWordChar = true := by cases m <;> decide
  have spoken : Source.opensComment m.name.toList = false := by cases m <;> decide
  exact ⟨shown, List.all_eq_true.1 solid, spoken⟩

end Mnemonic

namespace Statement

open Source

variable {line : List Lexeme} {s : Statement} {f : Form} {forms : List Form} {source : Text}

def form (s : Statement) : Form := ⟨s.label.map Lexeme.text, s.verb, s.operand.map Lexeme.text⟩

theorem text_eq_writtenLine (s : Statement) : s.text = writtenLine s.form.words := rfl

/-! ## Reading a form back -/

/-- The form of a statement comes from the texts of its words. -/
theorem form_ofWords? (line : List Lexeme) :
    (ofWords? line).map form = Form.ofTexts? (line.map Lexeme.text) := by
  match line with
  | [] => rfl
  | [word] => rfl
  | first :: second :: rest =>
    simp only [ofWords?, Form.ofTexts?, List.map_cons]
    split
    next => rfl
    next => simp [form, Statement.verb]

/-- A readable form is the form of its own words. -/
theorem ofTexts?_words (readable : f.Readable) : Form.ofTexts? f.words = some f := by
  obtain ⟨-, label, verb, unlabelled⟩ := readable
  obtain ⟨_ | name, instruction, _ | operand⟩ := f
  · simp [Form.words, Form.ofTexts?, verb]
  · have known : instruction.isKnown = true := unlabelled rfl (by simp)
    simp [Form.words, Form.ofTexts?, verb, known]
  · have unknown := label name rfl
    simp [Form.words, Form.ofTexts?, verb, unknown]
  · have unknown := label name rfl
    simp [Form.words, Form.ofTexts?, verb, unknown]

/-- A line with the words of a form is a statement of that form. -/
theorem exists_ofWords?_of_texts (readable : f.Readable) (texts : line.map Lexeme.text = f.words) :
    ∃ s, ofWords? line = some s ∧ s.form = f ∧ s.extra = [] := by
  have read := form_ofWords? line
  rw [texts, ofTexts?_words readable, Option.map_eq_some_iff] at read
  obtain ⟨s, read, rfl⟩ := read
  refine ⟨s, read, rfl, ?_⟩
  -- The form has as many words as the line, so there are no others.
  have many : s.words.length = s.form.words.length := by
    rw [words_ofWords? read, ← texts, List.length_map]
  rcases s with ⟨_ | label, instruction, _ | operand, extra⟩ <;>
    simpa [Statement.words, Form.words, form] using many

theorem forms_filterMap_ofWords? {lines : List (List Lexeme)}
    (readable : ∀ f ∈ forms, f.Readable)
    (texts : lines.map (·.map Lexeme.text) = forms.map Form.words) :
    (lines.filterMap ofWords?).map form = forms ∧
      ∀ s ∈ lines.filterMap ofWords?, s.extra = [] := by
  induction lines generalizing forms with
  | nil =>
    obtain rfl : forms = [] := by simpa [eq_comm] using texts
    simp
  | cons line lines ih =>
    cases forms with
    | nil => simp at texts
    | cons f forms =>
      rw [List.map_cons, List.map_cons, List.cons.injEq] at texts
      rw [List.forall_mem_cons] at readable
      obtain ⟨s, read, said, bare⟩ := exists_ofWords?_of_texts readable.1 texts.1
      obtain ⟨rest, restBare⟩ := ih readable.2 texts.2
      rw [List.filterMap_cons_some read]
      exact ⟨by rw [List.map_cons, said, rest], List.forall_mem_cons.2 ⟨bare, restBare⟩⟩

/-- Readable forms, written one a line, are what is read. -/
theorem forms_ofSource_written (readable : ∀ f ∈ forms, f.Readable) :
    (ofSource (written (forms.map Form.words))).map form = forms ∧
      ∀ s ∈ ofSource (written (forms.map Form.words)), s.extra = [] := by
  by_cases none : forms = []
  · subst none
    simp [ofSource, wordLines_tokens, wordsByLine, lineStarts, startsAfterNewlines, written,
      Text.join, Text.lines, Text.pieces, ofWords?]
  · rw [ofSource, wordLines_tokens]
    refine forms_filterMap_ofWords? readable (texts_wordsByLine_written (by simpa using none) ?_)
    intro words member
    obtain ⟨f, given, rfl⟩ := List.mem_map.1 member
    exact (readable f given).alone

/-! ## The statements of a source -/

/-- The forms of a source are those of its lines, where each line counts by itself. -/
theorem forms_ofSource (source : Text) : (ofSource source).map form =
    (Text.lines source).filterMap fun line => Form.ofTexts? (lineTexts line) := by
  have texts := congrArg (List.filterMap Form.ofTexts?) (texts_wordsByLine source)
  rw [List.filterMap_map, List.filterMap_map] at texts
  rw [ofSource, wordLines_tokens, List.map_filterMap]
  refine Eq.trans (List.filterMap_congr fun line _ => ?_) texts
  exact form_ofWords? line

/-- A label is no mnemonic. -/
theorem isKnown_label (read : ofWords? line = some s) {label : Lexeme}
    (given : s.label = some label) : (Verb.ofText label.text).isKnown = false := by
  obtain ⟨words, labelled, -⟩ := reads_of_ofWords? read
  have unknown := (labelled.1 (by simp [given])).2
  rw [← words, given] at unknown
  rw [← Bool.not_eq_true, Verb.isKnown_ofText_iff]
  simpa using unknown

theorem standsAlone_of_mem_words (member : s ∈ ofSource source) :
    ∀ word ∈ s.words, StandsAlone word.text := by
  obtain ⟨line, onLine, read⟩ := List.mem_filterMap.1 member
  rw [wordLines_tokens] at onLine
  rw [words_ofWords? read]
  exact fun word said => standsAlone_of_mem_wordsByLine onLine said

/-- A statement of a source is read back from its form. -/
theorem readable_form (member : s ∈ ofSource source) : s.form.Readable := by
  have alone := standsAlone_of_mem_words member
  obtain ⟨line, -, read⟩ := List.mem_filterMap.1 member
  obtain ⟨words, labelled, -⟩ := reads_of_ofWords? read
  refine ⟨fun word shown => ?_, fun label named => ?_, Verb.ofText_text _,
    fun unlabelled operand => ?_⟩
  · simp only [Form.words, form, List.mem_append, List.mem_cons, Option.mem_toList,
      Option.map_eq_some_iff] at shown
    rcases shown with ⟨l, given, rfl⟩ | rfl | ⟨l, given, rfl⟩
    · exact alone l (by simp [Statement.words, given])
    · cases verb : s.verb with
      | known m => exact m.standsAlone_name
      | unknown name =>
        obtain ⟨rfl, -⟩ := Verb.ofText_eq_unknown_iff.1 verb
        exact alone s.instruction (by simp [Statement.words])
    · exact alone l (by simp [Statement.words, given])
  · obtain ⟨l, given, rfl⟩ := Option.map_eq_some_iff.1 named
    exact isKnown_label read given
  · have given : s.label = none := Option.map_eq_none_iff.1 unlabelled
    have stands : s.operand ≠ none := fun none => operand (Option.map_eq_none_iff.2 none)
    obtain ⟨last, written⟩ := Option.ne_none_iff_exists'.1 stands
    -- There are two words at least, and the first is no label.
    rw [← words, given, written] at labelled
    exact Verb.isKnown_ofText_iff.2 (by simpa using labelled)

end Statement
end LittleMan
