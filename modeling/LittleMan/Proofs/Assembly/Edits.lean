import LittleMan.Proofs.Assembly.Agreement
import LittleMan.Proofs.Source.Layout
import LittleMan.Proofs.Text.LetterCase
import Mathlib.Logic.Relation

/-!
# Edits that do not matter

How a source is laid out does not matter: gaps, lines without words, comments, the case of
instructions, words after an operand and operands of instructions that use none. Each of these edits
leaves the gist of every statement as it is (`gists_of_edit`), so however many of them are made, the
source is assembled as before (`agree_of_edits`).
-/

namespace LittleMan

/-! ## Instructions in another case -/

namespace Source

open Text (SameLetters)

variable {c d : Char} {word word' : Text}

theorem isWordChar_of_isLetter (letter : Text.IsLetter c) : isWordChar c = true := by
  have solid : isGap c = false := by
    rw [← Bool.not_eq_true, isGap, decide_eq_true_eq]
    simp only [List.mem_cons, List.not_mem_nil, or_false]
    rintro (rfl | rfl | rfl | rfl | rfl) <;> exact absurd letter (by decide)
  have onLine : c ≠ '\n' := by
    rintro rfl
    exact absurd letter (by decide)
  simp [isWordChar, solid, onLine]

/-- A slash is no letter, so it has no other case. -/
theorem eq_slash (same : c.toUpper = Char.toUpper '/') : c = '/' := by
  rcases Text.eq_or_isLetter same with rfl | ⟨-, letter⟩
  · rfl
  · exact absurd letter (by decide)

theorem opensComment_of_sameLetters (same : SameLetters word word')
    (opens : opensComment word' = true) : opensComment word = true := by
  obtain ⟨rest, rfl⟩ : ∃ rest, '/' :: '/' :: rest = word' := List.isPrefixOf_iff_prefix.1 opens
  obtain ⟨c, more, rfl, first, others⟩ := List.map_eq_cons_iff.1 same
  obtain ⟨d, more, rfl, second, -⟩ := List.map_eq_cons_iff.1 others
  rw [eq_slash first, eq_slash second]
  rfl

theorem StandsAlone.of_sameLetters (alone : StandsAlone word) (same : SameLetters word word') :
    StandsAlone word' := by
  refine ⟨?_, fun d member => ?_, ?_⟩
  · rintro rfl
    exact alone.shown (List.map_eq_nil_iff.1 same)
  · have upper : d.toUpper ∈ word.map Char.toUpper := same ▸ List.mem_map_of_mem member
    obtain ⟨c, given, letters⟩ := List.mem_map.1 upper
    rcases Text.eq_or_isLetter letters with rfl | ⟨-, letter⟩
    · exact alone.solid c given
    · exact isWordChar_of_isLetter letter
  · rw [← Bool.not_eq_true]
    intro opens
    have spoken := alone.spoken
    rw [opensComment_of_sameLetters same opens] at spoken
    cases spoken

end Source

namespace Verb

theorem canonical_ofText {t u : Text} (same : Text.upper t = Text.upper u) :
    (ofText t).canonical = (ofText u).canonical := by
  rw [ofText, ofText, Mnemonic.ofText?, Mnemonic.ofText?, same]
  split
  next => rfl
  next => rw [canonical, canonical, same]

theorem isKnown_ofText_congr {t u : Text} (same : Text.upper t = Text.upper u) :
    (ofText t).isKnown = (ofText u).isKnown := by
  rw [← isKnown_canonical, canonical_ofText same, isKnown_canonical]

end Verb

/-! ## Edits -/

namespace Statement

open Source
open Text (SameLetters)

/-- An edit of one line that does not matter. -/
inductive LineEdit : Text → Text → Prop
  /-- Other gaps between two pieces of the line, but some. -/
  | respace {before gap gap' after : Text} (blank : Blank gap) (some : gap ≠ [])
      (blank' : Blank gap') (some' : gap' ≠ []) :
      LineEdit (before ++ gap ++ after) (before ++ gap' ++ after)
  /-- Other gaps at the start of the line, or none. -/
  | indent {gap gap' line : Text} (blank : Blank gap) (blank' : Blank gap') :
      LineEdit (gap ++ line) (gap' ++ line)
  /-- Other gaps at the end of the line and another comment, which is apart from what is before it,
  or neither. -/
  | finish {line after after' : Text} (apart : OpensApart after) (silent : Silent after)
      (apart' : OpensApart after') (silent' : Silent after') :
      LineEdit (line ++ after) (line ++ after')
  /-- Other words behind the operand, or none. -/
  | ignored {before after after' : Text} {f : Form}
      (read : Form.ofTexts? (lineTexts before) = some f) (written : f.operand ≠ none)
      (apart : OpensApart after) (apart' : OpensApart after') :
      LineEdit (before ++ after) (before ++ after')
  /-- Another operand of an instruction that uses none, or no operand. -/
  | unused {before after after' : Text} {f : Form}
      (read : Form.ofTexts? (lineTexts before) = some f)
      (plain : f.verb = .known .hlt ∨ f.verb = .known .inp ∨ f.verb = .known .out)
      (apart : OpensApart after) (apart' : OpensApart after') :
      LineEdit (before ++ after) (before ++ after')
  /-- Other case of the instruction, which is the first word or the one behind the label. -/
  | letterCase {before word word' after : Text} {f : Form} (closes : ClosesApart before)
      (alone : StandsAlone word) (opens : OpensApart after)
      (read : Form.ofTexts? (lineTexts (before ++ word ++ after)) = some f)
      (place : lineTexts before = f.label.toList) (same : SameLetters word word') :
      LineEdit (before ++ word ++ after) (before ++ word' ++ after)

/-- An edit of a source that does not matter: of one of its lines, or a line without words put in
or taken out. -/
inductive Edit (source source' : Text) : Prop
  | line {above below : List Text} {line line' : Text} (edit : LineEdit line line')
      (cut : Text.lines source = above ++ line :: below)
      (cut' : Text.lines source' = above ++ line' :: below)
  | insert {above below : List Text} {line : Text} (silent : Silent line)
      (cut : Text.lines source = above ++ below)
      (cut' : Text.lines source' = above ++ line :: below)
  | delete {above below : List Text} {line : Text} (silent : Silent line)
      (cut : Text.lines source = above ++ line :: below)
      (cut' : Text.lines source' = above ++ below)

variable {before after word word' line line' source source' : Text} {words more : List Text}
  {f : Form}

/-! ## What an edit leaves as it is -/

/-- What assembly looks at of a line. -/
def lineGist (line : Text) : Option Form := (Form.ofTexts? (lineTexts line)).map Form.gist

/-- Words behind an operand are ignored. -/
theorem ofTexts?_append (read : Form.ofTexts? words = some f) (written : f.operand ≠ none)
    (more : List Text) : Form.ofTexts? (words ++ more) = some f := by
  match words, read with
  | [instruction], read =>
    cases read
    exact absurd rfl written
  | first :: second :: rest, read =>
    simp only [List.cons_append, Form.ofTexts?] at read ⊢
    split at read
    next known =>
      rw [if_pos known]
      exact read
    next unknown =>
      rw [if_neg unknown]
      cases rest with
      | nil =>
        cases read
        exact absurd rfl written
      | cons operand rest => exact read

/-- Words behind a mnemonic do not change what it is, nor its label. -/
theorem exists_ofTexts?_append (read : Form.ofTexts? words = some f)
    (known : f.verb.isKnown = true) (more : List Text) :
    ∃ operand, Form.ofTexts? (words ++ more) = some ⟨f.label, f.verb, operand⟩ := by
  match words, read with
  | [instruction], read =>
    cases read
    cases more with
    | nil => exact ⟨_, rfl⟩
    | cons operand more => exact ⟨some operand, if_pos known⟩
  | first :: second :: rest, read =>
    simp only [List.cons_append, Form.ofTexts?] at read ⊢
    split at read
    next mnemonic =>
      cases read
      exact ⟨_, if_pos mnemonic⟩
    next label =>
      cases read
      exact ⟨_, if_neg label⟩

theorem gist_congr {verb verb' : Verb} (same : verb.canonical = verb'.canonical)
    (label operand : Option Text) :
    Form.gist ⟨label, verb, operand⟩ = Form.gist ⟨label, verb', operand⟩ := by
  simp only [Form.gist, same, Verb.usesOperand_congr same]

/-- The gist of a line does not depend on the case of its instruction. -/
theorem gist_ofTexts?_sameLetters (read : Form.ofTexts? (f.label.toList ++ word :: more) = some f)
    (same : SameLetters word word') :
    (Form.ofTexts? (f.label.toList ++ word' :: more)).map Form.gist = some f.gist := by
  have verbs := Verb.canonical_ofText same.upper_eq
  have known := Verb.isKnown_ofText_congr same.upper_eq
  obtain ⟨_ | label, verb, operand⟩ := f
  · cases more with
    | nil =>
      cases read
      exact congrArg some (gist_congr verbs.symm none none)
    | cons second rest =>
      -- The word is the first of several, so it is no instruction unless it is a mnemonic.
      simp only [Option.toList_none, List.nil_append, Form.ofTexts?, ← known] at read ⊢
      split at read
      next mnemonic =>
        cases read
        rw [if_pos mnemonic]
        exact congrArg some (gist_congr verbs.symm none (some second))
      next => cases read
  · simp only [Option.toList_some, List.singleton_append, Form.ofTexts?] at read ⊢
    split at read
    next => cases read
    next unknown =>
      cases read
      rw [if_neg unknown]
      exact congrArg some (gist_congr verbs.symm (some label) more.head?)

theorem ofTexts?_lineTexts_append (read : Form.ofTexts? (lineTexts before) = some f)
    (written : f.operand ≠ none) (apart : OpensApart after) :
    Form.ofTexts? (lineTexts (before ++ after)) = some f := by
  obtain ⟨rest, split⟩ := lineTexts_prefix apart before
  rw [← split, ofTexts?_append read written]

theorem lineGist_append (read : Form.ofTexts? (lineTexts before) = some f)
    (plain : f.verb = .known .hlt ∨ f.verb = .known .inp ∨ f.verb = .known .out)
    (apart : OpensApart after) : lineGist (before ++ after) = some f.gist := by
  have mnemonic : f.verb.isKnown = true ∧ f.verb.usesOperand = false := by
    rcases plain with same | same | same <;> exact same ▸ ⟨rfl, rfl⟩
  obtain ⟨known, unused⟩ := mnemonic
  obtain ⟨rest, split⟩ := lineTexts_prefix apart before
  obtain ⟨operand, reads⟩ := exists_ofTexts?_append read known rest
  rw [lineGist, ← split, reads]
  simp [Form.gist, unused]

theorem lineGist_of_lineEdit (edit : LineEdit line line') : lineGist line = lineGist line' := by
  cases edit with
  | respace blank some blank' some' =>
    rw [lineGist, lineGist, lineTexts_gap blank some, lineTexts_gap blank' some']
  | indent blank blank' =>
    rw [lineGist, lineGist, lineTexts_blank_append blank, lineTexts_blank_append blank']
  | finish apart silent apart' silent' =>
    rw [lineGist, lineGist, lineTexts_append_silent apart silent,
      lineTexts_append_silent apart' silent']
  | ignored read written apart apart' =>
    rw [lineGist, lineGist, ofTexts?_lineTexts_append read written apart,
      ofTexts?_lineTexts_append read written apart']
  | unused read plain apart apart' =>
    rw [lineGist_append read plain apart, lineGist_append read plain apart']
  | letterCase closes alone opens read place same =>
    have alone' := alone.of_sameLetters same
    rcases lineTexts_word closes opens with none | ⟨more, said⟩
    · rw [lineGist, lineGist, none _ alone, none _ alone']
    · rw [lineGist, lineGist, read, said _ alone', place]
      rw [said _ alone, place] at read
      exact (gist_ofTexts?_sameLetters read same).symm

theorem gists_eq_filterMap (source : Text) :
    ((ofSource source).map form).map Form.gist = (Text.lines source).filterMap lineGist := by
  rw [forms_ofSource, List.map_filterMap]
  rfl

theorem lineGist_of_silent (silent : Silent line) : lineGist line = none := by
  rw [lineGist, lineTexts_of_silent silent]
  rfl

/-- An edit leaves the gists of all statements as they are. -/
theorem gists_of_edit (edit : Edit source source') : ((ofSource source).map form).map Form.gist =
    ((ofSource source').map form).map Form.gist := by
  rw [gists_eq_filterMap, gists_eq_filterMap]
  cases edit with
  | line edit cut cut' =>
    rw [cut, cut', List.filterMap_append, List.filterMap_append, List.filterMap_cons,
      List.filterMap_cons, lineGist_of_lineEdit edit]
  | insert silent cut cut' =>
    rw [cut, cut', List.filterMap_append, List.filterMap_append,
      List.filterMap_cons_none (lineGist_of_silent silent)]
  | delete silent cut cut' =>
    rw [cut, cut', List.filterMap_append, List.filterMap_append,
      List.filterMap_cons_none (lineGist_of_silent silent)]

theorem gists_of_edits (edits : Relation.ReflTransGen Edit source source') :
    ((ofSource source).map form).map Form.gist = ((ofSource source').map form).map Form.gist := by
  induction edits with
  | refl => rfl
  | tail _ edit ih => exact ih.trans (gists_of_edit edit)

end Statement

namespace Assembly

open Statement

/-- A source to which edits are made that do not matter, however many, is assembled to the same words,
length and addresses of labels, or is refused for the same problem. -/
theorem agree_of_edits {source source' : Text} (edits : Relation.ReflTransGen Edit source source')
    (options : Options) :
    Agree (assemble options source).result (assemble options source').result :=
  agree_of_gists options (gists_of_edits edits)

/-- A program that keeps an input in place of its first instruction. -/
def plainSource : Text := "X INP\nSTA X".toList

/-- The same program with a comment, other gaps, other case and words that are ignored. -/
def dressedSource : Text := "X\tInp 5 // in\n\r\nSTA X now".toList

theorem agree_of_edits_dressed : Relation.ReflTransGen Edit plainSource dressedSource ∧
    ∀ options,
      Agree (assemble options plainSource).result (assemble options dressedSource).result := by
  have parted : Edit plainSource "X INP\n\r\nSTA X".toList := by
    have silent : Source.Silent "\r".toList := by decide
    have cut : Text.lines plainSource = ["X INP".toList] ++ ["STA X".toList] := by decide
    exact .insert silent cut (by decide)
  have cased : Edit "X INP\n\r\nSTA X".toList "X Inp\n\r\nSTA X".toList := by
    have read : Form.ofTexts? (Source.lineTexts ("X ".toList ++ "INP".toList ++ [])) =
        some ⟨some "X".toList, .known .inp, none⟩ := by decide +kernel
    have edit : LineEdit ("X ".toList ++ "INP".toList ++ []) ("X ".toList ++ "Inp".toList ++ []) :=
      .letterCase (by decide) (by decide) (by decide) read (by decide +kernel) (by decide)
    have cut : Text.lines "X INP\n\r\nSTA X".toList =
        [] ++ ("X ".toList ++ "INP".toList ++ []) :: ["\r".toList, "STA X".toList] := by decide
    exact .line edit cut (by decide)
  have given : Edit "X Inp\n\r\nSTA X".toList "X Inp 5 // in\n\r\nSTA X".toList := by
    have read : Form.ofTexts? (Source.lineTexts "X Inp".toList) =
        some ⟨some "X".toList, .known .inp, none⟩ := by decide +kernel
    have edit : LineEdit ("X Inp".toList ++ []) ("X Inp".toList ++ " 5 // in".toList) :=
      .unused read (by decide) (by decide) (by decide)
    have cut : Text.lines "X Inp\n\r\nSTA X".toList =
        [] ++ ("X Inp".toList ++ []) :: ["\r".toList, "STA X".toList] := by decide
    exact .line edit cut (by decide)
  have spaced : Edit "X Inp 5 // in\n\r\nSTA X".toList "X\tInp 5 // in\n\r\nSTA X".toList := by
    have edit : LineEdit ("X".toList ++ " ".toList ++ "Inp 5 // in".toList)
        ("X".toList ++ "\t".toList ++ "Inp 5 // in".toList) :=
      .respace (by decide) (by decide) (by decide) (by decide)
    have cut : Text.lines "X Inp 5 // in\n\r\nSTA X".toList = [] ++
        ("X".toList ++ " ".toList ++ "Inp 5 // in".toList) ::
          ["\r".toList, "STA X".toList] := by decide
    exact .line edit cut (by decide)
  have followed : Edit "X\tInp 5 // in\n\r\nSTA X".toList dressedSource := by
    have read : Form.ofTexts? (Source.lineTexts "STA X".toList) =
        some ⟨none, .known .sta, some "X".toList⟩ := by decide +kernel
    have edit : LineEdit ("STA X".toList ++ []) ("STA X".toList ++ " now".toList) :=
      .ignored read (by decide) (by decide) (by decide)
    have cut : Text.lines "X\tInp 5 // in\n\r\nSTA X".toList =
        ["X\tInp 5 // in".toList, "\r".toList] ++ ("STA X".toList ++ []) :: [] := by decide
    exact .line edit cut (by decide)
  have edits : Relation.ReflTransGen Edit plainSource dressedSource :=
    .head parted (.head cased (.head given (.head spaced (.single followed))))
  exact ⟨edits, agree_of_edits edits⟩

end Assembly
end LittleMan
