import LittleMan.Proofs.Assembly.Agreement
import LittleMan.Proofs.Assembly.Lenient
import LittleMan.Proofs.Source.Layout
import Mathlib.Data.List.Nodup

/-!
# Labels by other names

The labels of a source can be given other names, where they are defined and where an operand is one
of them. While the new names differ from each other and from the operands that are no labels, the
source is assembled to the same words as before, or is refused for the same problem
(`assemble_rename`).
-/

namespace LittleMan

/-- The form with other names for its label and its operand. -/
def Form.under (σ : Text → Text) (f : Form) : Form := ⟨f.label.map σ, f.verb, f.operand.map σ⟩

namespace Statement

open Source

/-- The words of a statement with other names for its label and its operand. -/
def wordsUnder (σ : Text → Text) (s : Statement) : List Text :=
  (s.label.map fun label => σ label.text).toList ++ s.instruction.text ::
    ((s.operand.map fun operand => σ operand.text).toList ++ s.extra.map Lexeme.text)

/-- The line with other names in the places of its label and its operand. -/
def renameLine (σ : Text → Text) (line : Text) : Text :=
  match ofWords? (lineWords 0 line) with
  | none => line
  | some s => respell (s.wordsUnder σ) line

/-- The labels that a source defines. -/
def names (source : Text) : List Text := (ofSource source).filterMap name?

/-- The new name of a label of the source. Other texts stay. -/
def newName (ρ : Text → Text) (source : Text) (t : Text) : Text :=
  if t ∈ names source then ρ t else t

/-- The source with new names for its labels, where they are defined and where an operand is one of
them. -/
def rename (ρ : Text → Text) (source : Text) : Text :=
  Text.join ['\n'] ((Text.lines source).map (renameLine (newName ρ source)))

/-- The new names can stand for the labels of a source. -/
structure Renames (ρ : Text → Text) (source : Text) : Prop where
  injective : ∀ name ∈ names source, ∀ name' ∈ names source, ρ name = ρ name' → name = name'
  alone : ∀ name ∈ names source, StandsAlone (ρ name)
  /-- No new name is a mnemonic, in whatever case. -/
  unknown : ∀ name ∈ names source, ∀ m : Mnemonic, Text.upper (ρ name) ≠ m.name.toList
  /-- No new name is an operand that is no label. -/
  fresh : ∀ s ∈ ofSource source, ∀ operand ∈ s.operand, operand.text ∉ names source →
    ∀ name ∈ names source, ρ name ≠ operand.text

/-! ## What is read of the new names -/

section Lines

variable {σ : Text → Text} {line : Text} {words : List Lexeme} {s : Statement}

theorem ofTexts?_wordsUnder (read : ofWords? words = some s)
    (unknown : ∀ label ∈ s.label, (Verb.ofText (σ label.text)).isKnown = false) :
    Form.ofTexts? (s.wordsUnder σ) = some (s.form.under σ) := by
  obtain ⟨rfl, labelled, operand⟩ := reads_of_ofWords? read
  rcases s with ⟨_ | label, instruction, _ | written, extra⟩
  · obtain rfl : extra = [] := operand rfl
    rfl
  · have known : (Verb.ofText instruction.text).isKnown = true := by
      rw [Verb.isKnown_ofText_iff]
      simpa using labelled
    simp [wordsUnder, Form.ofTexts?, Form.under, form, verb, known]
  · obtain rfl : extra = [] := operand rfl
    simp [wordsUnder, Form.ofTexts?, Form.under, form, verb, unknown label rfl]
  · simp [wordsUnder, Form.ofTexts?, Form.under, form, verb, unknown label rfl]

theorem length_wordsUnder (s : Statement) : (s.wordsUnder σ).length = s.words.length := by
  rcases s with ⟨_ | label, instruction, _ | written, extra⟩ <;> simp [wordsUnder, words]

theorem exists_of_mem_wordsUnder {word : Text} (member : word ∈ s.wordsUnder σ) :
    ∃ w ∈ s.words, word = w.text ∨ word = σ w.text := by
  simp only [wordsUnder, List.mem_append, List.mem_cons, Option.mem_toList, Option.map_eq_some_iff,
    List.mem_map] at member
  rcases member with ⟨w, given, rfl⟩ | rfl | ⟨w, given, rfl⟩ | ⟨w, given, rfl⟩
  · exact ⟨w, by simp [words, given], .inr rfl⟩
  · exact ⟨s.instruction, by simp [words], .inl rfl⟩
  · exact ⟨w, by simp [words, given], .inr rfl⟩
  · exact ⟨w, by simp [words, given], .inl rfl⟩

/-- Names that are read as words and not as mnemonics are read in the places of a line's own. -/
theorem ofTexts?_renameLine (onLine : '\n' ∉ line)
    (alone : ∀ t, StandsAlone t → StandsAlone (σ t))
    (unknown : ∀ t, (Verb.ofText t).isKnown = false → (Verb.ofText (σ t)).isKnown = false) :
    Form.ofTexts? (lineTexts (renameLine σ line)) =
        (Form.ofTexts? (lineTexts line)).map (Form.under σ) ∧
      '\n' ∉ renameLine σ line := by
  have forms : Form.ofTexts? (lineTexts line) = (ofWords? (lineWords 0 line)).map form :=
    (form_ofWords? _).symm
  rw [renameLine]
  cases read : ofWords? (lineWords 0 line) with
  | none =>
    rw [forms, read]
    exact ⟨rfl, onLine⟩
  | some s =>
    have said := words_ofWords? read
    have new : ∀ word ∈ s.wordsUnder σ, StandsAlone word := by
      intro word member
      obtain ⟨w, given, same⟩ := exists_of_mem_wordsUnder member
      have own : StandsAlone w.text := standsAlone_of_mem_lineWords onLine (said ▸ given)
      rcases same with rfl | rfl
      · exact own
      · exact alone _ own
    have many : (s.wordsUnder σ).length = (lineTexts line).length := by
      rw [length_wordsUnder, said, lineTexts, List.length_map]
    refine ⟨?_, newline_not_mem_respell new onLine⟩
    rw [lineTexts_respell new many, forms, read]
    exact ofTexts?_wordsUnder read fun label given => unknown _ (isKnown_label read given)

end Lines

section Sources

variable {ρ : Text → Text} {source : Text} {t : Text} {s s' : Statement}

theorem newName_of_mem (member : t ∈ names source) : newName ρ source t = ρ t := if_pos member

theorem newName_of_not_mem (member : t ∉ names source) : newName ρ source t = t := if_neg member

theorem standsAlone_newName (renames : Renames ρ source) (own : StandsAlone t) :
    StandsAlone (newName ρ source t) := by
  by_cases member : t ∈ names source
  · rw [newName_of_mem member]
    exact renames.alone t member
  · rwa [newName_of_not_mem member]

theorem isKnown_newName (renames : Renames ρ source) (own : (Verb.ofText t).isKnown = false) :
    (Verb.ofText (newName ρ source t)).isKnown = false := by
  by_cases member : t ∈ names source
  · rw [newName_of_mem member, ← Bool.not_eq_true, Verb.isKnown_ofText_iff]
    exact not_exists.2 (renames.unknown t member)
  · rwa [newName_of_not_mem member]

/-- The renamed source is read as the source is, with the new names in the places of the labels. -/
theorem forms_rename (renames : Renames ρ source) : (ofSource (rename ρ source)).map form =
    ((ofSource source).map form).map (Form.under (newName ρ source)) := by
  have each : ∀ line ∈ Text.lines source, _ := fun line cut =>
    ofTexts?_renameLine (Text.not_mem_of_mem_pieces cut) (fun _ => standsAlone_newName renames)
      (fun _ => isKnown_newName renames)
  have lines : Text.lines (rename ρ source) =
      (Text.lines source).map (renameLine (newName ρ source)) := by
    refine Text.pieces_join (by simpa using Text.lines_ne_nil source) fun line member => ?_
    obtain ⟨old, stood, rfl⟩ := List.mem_map.1 member
    exact (each old stood).2
  rw [forms_ofSource, forms_ofSource, lines, List.filterMap_map, List.map_filterMap]
  exact List.filterMap_congr fun line stood => (each line stood).1

theorem map_name?_rename (renames : Renames ρ source) : (ofSource (rename ρ source)).map name? =
    ((ofSource source).map name?).map (Option.map (newName ρ source)) := by
  have labels := congrArg (List.map Form.label) (forms_rename renames)
  rw [List.map_map, List.map_map, List.map_map] at labels
  rw [List.map_map]
  exact labels

theorem nameAt_rename (renames : Renames ρ source) (k : Nat) :
    nameAt (ofSource (rename ρ source)) k =
      (nameAt (ofSource source) k).map (newName ρ source) := by
  rw [nameAt_eq_join, nameAt_eq_join, map_name?_rename renames, List.getElem?_map]
  cases ((ofSource source).map name?)[k]? <;> rfl

theorem names_rename (renames : Renames ρ source) :
    names (rename ρ source) = (names source).map (newName ρ source) := by
  rw [names, names, filterMap_name?_eq, filterMap_name?_eq, map_name?_rename renames,
    List.filterMap_map, List.map_filterMap]
  rfl

/-- A text has the new name of a label only if it is that label. -/
theorem eq_of_newName (renames : Renames ρ source) {name : Text} (defined : name ∈ names source)
    (apart : t ∉ names source → ρ name ≠ t)
    (same : newName ρ source name = newName ρ source t) : name = t := by
  rw [newName_of_mem defined] at same
  by_cases member : t ∈ names source
  · rw [newName_of_mem member] at same
    exact renames.injective name defined t member same
  · rw [newName_of_not_mem member] at same
    exact absurd same (apart member)

theorem nodup_names_rename_iff (renames : Renames ρ source) :
    (names (rename ρ source)).Nodup ↔ (names source).Nodup := by
  rw [names_rename renames]
  refine ⟨List.Nodup.of_map _, fun distinct => distinct.map_on ?_⟩
  intro name defined name' defined' same
  exact eq_of_newName renames defined (fun absent => absurd defined' absent) same

end Sources

end Statement

namespace Assembly

open Statement

variable {ρ : Text → Text} {source : Text} {s s' : Statement} {operand : Lexeme}

/-- An operand under its new name stands for the same as before. -/
theorem match_newName (renames : Renames ρ source) (written : s ∈ ofSource source)
    (given : s.operand = some operand) :
    (Labels.ofProgram (ofSource source)).Match (Labels.ofProgram (ofSource (rename ρ source)))
      operand.text (newName ρ source operand.text) := by
  have named : ∀ k, nameAt (ofSource (rename ρ source)) k = some (newName ρ source operand.text) ↔
      nameAt (ofSource source) k = some operand.text := by
    intro k
    rw [nameAt_rename renames, Option.map_eq_some_iff]
    constructor
    · rintro ⟨name, found, same⟩
      have defined : name ∈ names source := mem_names_iff.2 ⟨k, found⟩
      have apart : operand.text ∉ names source → ρ name ≠ operand.text := fun absent =>
        renames.fresh s written operand given absent name defined
      rw [found, eq_of_newName renames defined apart same]
    · exact fun found => ⟨_, found, rfl⟩
  refine ⟨Option.ext fun k => ?_, fun unbound => ?_⟩
  · simp only [Labels.address_find?_ofProgram_iff, ne_eq, named]
  · have absent : operand.text ∉ names source := by
      rw [names, mem_names_iff]
      exact not_exists.2 (Labels.find?_ofProgram_eq_none_iff.1 unbound)
    rw [newName_of_not_mem absent]

theorem alike_rename (renames : Renames ρ source) : List.Forall₂
    (Alike (Labels.ofProgram (ofSource source)) (Labels.ofProgram (ofSource (rename ρ source))))
    (ofSource source) (ofSource (rename ρ source)) := by
  have forms := (forms_rename renames).symm
  rw [List.map_map, ← List.forall₂_eq_eq_eq, List.forall₂_map_left_iff,
    List.forall₂_map_right_iff] at forms
  have placed := (List.forall₂_and_left _ _).2 ⟨fun s (written : s ∈ ofSource source) => written, forms⟩
  refine placed.imp fun s s' related => ?_
  obtain ⟨written, form⟩ := related
  have verbs : s.verb = s'.verb := congrArg Form.verb form
  have operands : (s.operand.map Lexeme.text).map (newName ρ source) = s'.operand.map Lexeme.text :=
    congrArg Form.operand form
  refine ⟨congrArg Verb.canonical verbs, fun _ => ?_⟩
  rw [← operands]
  cases given : s.operand with
  | none => exact .none
  | some operand => exact .some (match_newName renames written given)

/-- A source whose labels are renamed is assembled to the same words, or is refused for the same
problem. -/
theorem assemble_rename (renames : Renames ρ source) (options : Options) :
    (verdict (assemble options (rename ρ source))).map ObjectFile.image =
      (verdict (assemble options source)).map ObjectFile.image := by
  have labels := nodup_names_rename_iff renames
  by_cases distinct : options.strict = true → (names source).Nodup
  · have distinct' : options.strict = true → (names (rename ρ source)).Nodup :=
      fun strict => labels.2 (distinct strict)
    rw [verdict_assemble distinct, verdict_assemble distinct',
      ← encodings_congr (alike_rename renames)]
    cases encodings options.strict (Labels.ofProgram (ofSource source)) (ofSource source) with
    | ok words => rfl
    | error problem => rfl
  · have again : ¬(options.strict = true → (names (rename ρ source)).Nodup) :=
      fun distinct' => distinct fun strict => labels.1 (distinct' strict)
    rw [verdict_assemble_of_not_distinct distinct, verdict_assemble_of_not_distinct again]

/-- A label looks like a number and another is defined twice. One is repeated after an operand and in
a comment. -/
def borrowedSource : Text := "7 LDA A 7 // 7 A\n\n\tA  BRA 7\r\nA SUB 10\nOUT\nDAT B".toList

/-- Each of the two labels by the name of the other. -/
def swapNames (name : Text) : Text := if name = "7".toList then "A".toList else "7".toList

example : rename swapNames borrowedSource =
    "A LDA 7 7 // 7 A\n\n\t7  BRA A\r\n7 SUB 10\nOUT\nDAT B".toList := by decide +kernel

theorem assemble_rename_swap : Renames swapNames borrowedSource ∧
    (verdict (assemble {} (rename swapNames borrowedSource))).map ObjectFile.image =
      (verdict (assemble {} borrowedSource)).map ObjectFile.image := by
  have defined : names borrowedSource = ["7".toList, "A".toList, "A".toList] := by decide +kernel
  have renames : Renames swapNames borrowedSource := by
    refine ⟨?_, ?_, ?_, ?_⟩
    · rw [defined]
      decide
    · rw [defined]
      decide
    · rw [defined]
      intro name member m
      revert name
      cases m <;> decide +kernel
    · rw [defined]
      decide +kernel
  exact ⟨renames, assemble_rename renames {}⟩

end Assembly
end LittleMan
