import LittleMan.Proofs.Assembly.Agreement
import LittleMan.Proofs.Assembly.Lenient
import LittleMan.Proofs.Assembly.Lookup
import LittleMan.Proofs.Assembly.Strict
import LittleMan.Proofs.Source.Places
import Mathlib.Data.List.Induction

/-!
# What a program is refused for, and where

Strict assembly looks at all labels first, so a label that is defined again goes before everything
else. Otherwise the first statement that is at fault counts, and beyond the memory every statement is.
The places of an error mark the words of the source that are to blame (`refused_rightly`).
-/

namespace LittleMan

/-- Strict assembly lets this value of an operand pass. -/
def Mnemonic.InRange (m : Mnemonic) (value : Int) : Prop :=
  if m.takesAddress then 0 ≤ value ∧ value ≤ 99 else -999 ≤ value ∧ value ≤ 999

namespace Assembly

open Source Statement

/-! ## Labels that are defined again -/

/-- Two statements have the same label. -/
def Repeats (statements : List Statement) : Prop :=
  ∃ j k name, j < k ∧ nameAt statements j = some name ∧ nameAt statements k = some name

/-- The error points at the first label that is defined again, and at its earlier definition. -/
inductive FirstRepeat (statements : List Statement) : Error → Prop
  | intro {j k : Nat} {s s' : Statement} {l l' : Lexeme} (earlier : j < k)
      (at_j : statements[j]? = some s) (at_k : statements[k]? = some s') (label : s.label = some l)
      (label' : s'.label = some l') (same : l.text = l'.text)
      (first : ¬Repeats (statements.take k)) :
      FirstRepeat statements ⟨.duplicateLabel, .two l.span l'.span⟩

/-! ## Statements at fault -/

/-- What is wrong with a statement, wherever it lies. -/
inductive Faulty (strict : Bool) (statements : List Statement) (s : Statement) : Error → Prop
  | unknown (unknown : ∀ m : Mnemonic, Text.upper s.instruction.text ≠ m.name.toList) :
      Faulty strict statements s
        ⟨.unknownInstruction (Text.upper s.instruction.text), .one s.instruction.span⟩
  | missing {m : Mnemonic} (isStrict : strict = true) (known : s.verb = .known m)
      (takes : m.takesAddress = true) (none : s.operand = none) :
      Faulty strict statements s ⟨.missingOperand, .one s.instruction.span⟩
  | invalid {m : Mnemonic} {operand : Lexeme} (isStrict : strict = true) (known : s.verb = .known m)
      (uses : m.usesOperand = true) (given : s.operand = some operand)
      (unnamed : ∀ k, nameAt statements k ≠ some operand.text)
      (unread : Word.ofText? operand.text = none) :
      Faulty strict statements s ⟨.invalidOperand, .one operand.span⟩
  | outOfRange {m : Mnemonic} {operand : Lexeme} {value : Int} (isStrict : strict = true)
      (known : s.verb = .known m) (uses : m.usesOperand = true) (given : s.operand = some operand)
      (stands : StandsFor statements (some operand) value) (outside : ¬m.InRange value) :
      Faulty strict statements s ⟨.operandOutOfRange, .one operand.span⟩

/-- The statement at an address is refused with the error. Strict assembly refuses every statement
beyond the memory, whatever else is wrong with it. -/
def Offends (strict : Bool) (statements : List Statement) (k : Nat) (s : Statement) (e : Error) :
    Prop :=
  if strict = true ∧ 100 ≤ k then e = ⟨.capacityExceeded, .one s.span⟩
  else Faulty strict statements s e

/-- The error is that of the first statement that is refused. -/
def FirstOffence (strict : Bool) (statements : List Statement) (e : Error) : Prop :=
  ∃ k s, statements[k]? = some s ∧ Offends strict statements k s e ∧
    ∀ j < k, ∀ s', statements[j]? = some s' → ∀ e', ¬Offends strict statements j s' e'

/-! ## Places -/

/-- The places of the error mark the words of some statement that the problem is about. -/
def PointsAt (source : Text) (e : Error) : Prop :=
  match e.problem, e.places with
  | .unknownInstruction name, .one place => ∃ s ∈ ofSource source, place = s.instruction.span ∧
      Marks source place s.instruction.text ∧ name = Text.upper s.instruction.text
  | .missingOperand, .one place => ∃ s ∈ ofSource source, place = s.instruction.span ∧
      Marks source place s.instruction.text
  | .invalidOperand, .one place | .operandOutOfRange, .one place =>
    ∃ s ∈ ofSource source, ∃ operand, s.operand = some operand ∧ place = operand.span ∧
      Marks source place operand.text
  | .duplicateLabel, .two earlier later => ∃ label, Marks source earlier label ∧
      Marks source later label ∧ earlier.stop ≤ later.start ∧
      ∃ (s s' : Statement) (l l' : Lexeme), s ∈ ofSource source ∧ s' ∈ ofSource source ∧
        s.label = some l ∧ s'.label = some l' ∧ earlier = l.span ∧ later = l'.span
  | .capacityExceeded, .one place => ∃ s ∈ ofSource source, place = s.span ∧
      ∃ text, Marks source place text ∧ lineTexts text = s.words.map Lexeme.text
  | _, _ => False

variable {strict : Bool} {statements : List Statement} {s : Statement} {m : Mnemonic} {e : Error}
  {source : Text}

/-! ## Finding the labels -/

theorem repeats_iff : Repeats statements ↔ ¬(statements.filterMap name?).Nodup := by
  constructor
  · rintro ⟨j, k, name, earlier, first, again⟩ distinct
    exact Nat.ne_of_lt earlier (nameAt_injective distinct first again)
  · intro again
    refine Classical.byContradiction fun unique => again (nodup_names ?_)
    intro name j k first second
    rcases Nat.lt_trichotomy j k with before | same | after
    · exact absurd ⟨j, k, name, before, first, second⟩ unique
    · exact same
    · exact absurd ⟨k, j, name, after, second, first⟩ unique

theorem firstRepeat_append_iff :
    FirstRepeat (statements ++ [s]) e ↔ FirstRepeat statements e ∨
      (¬Repeats statements ∧ ∃ (j : Nat) (s₀ : Statement) (l l' : Lexeme),
        statements[j]? = some s₀ ∧ s₀.label = some l ∧ s.label = some l' ∧ l.text = l'.text ∧
          e = ⟨.duplicateLabel, .two l.span l'.span⟩) := by
  constructor
  · rintro @⟨j, k, s₀, s', l, l', earlier, at_j, at_k, label, label', same, first⟩
    have below := (List.getElem?_eq_some_iff.1 at_k).1
    rw [List.length_append, List.length_singleton] at below
    have inside : j < statements.length := by omega
    rw [List.getElem?_append_left inside] at at_j
    by_cases last : k = statements.length
    · rw [last, List.take_left] at first
      rw [last, List.getElem?_concat_length] at at_k
      cases at_k
      exact .inr ⟨first, j, s₀, l, l', at_j, label, label', same, rfl⟩
    · rw [List.getElem?_append_left (by omega)] at at_k
      rw [List.take_append_of_le_length (by omega)] at first
      exact .inl ⟨earlier, at_j, at_k, label, label', same, first⟩
  · rintro (@⟨j, k, s₀, s', l, l', earlier, at_j, at_k, label, label', same, first⟩ |
      ⟨first, j, s₀, l, l', at_j, label, label', same, rfl⟩)
    · have inside := (List.getElem?_eq_some_iff.1 at_k).1
      refine ⟨earlier, ?_, ?_, label, label', same, ?_⟩
      · rw [List.getElem?_append_left (by omega), at_j]
      · rw [List.getElem?_append_left inside, at_k]
      · rwa [List.take_append_of_le_length (by omega)]
    · have inside := (List.getElem?_eq_some_iff.1 at_j).1
      refine ⟨inside, ?_, List.getElem?_concat_length, label, label', same, ?_⟩
      · rw [List.getElem?_append_left inside, at_j]
      · rwa [List.take_left]

/-- The labels of a program are refused for the first that is defined again. -/
theorem ofStatements_strict_error_iff :
    (Labels.ofStatements true statements).result = .error e ↔ FirstRepeat statements e := by
  induction statements using List.reverseRecOn with
  | nil =>
    constructor
    · intro failed
      cases failed
    · rintro ⟨-, at_j, -⟩
      cases at_j
  | append_singleton statements s ih =>
    rw [Labels.ofStatements_append, Noted.result_bind, Noted.bind_error_iff, ih,
      firstRepeat_append_iff]
    refine or_congr_right ?_
    simp only [Labels.ofStatements_ok_iff, Labels.afterStatement_error_iff, true_implies,
      repeats_iff, not_not]
    constructor
    · rintro ⟨labels, ⟨distinct, rfl⟩, -, l', b, label', found, rfl⟩
      obtain ⟨s₀, l, at_b, label, same, place⟩ := Labels.label_of_find?_ofProgram found
      rw [place]
      exact ⟨distinct, b.address, s₀, l, l', at_b, label, label', same, rfl⟩
    · rintro ⟨distinct, j, s₀, l, l', at_j, label, label', same, rfl⟩
      have found := Labels.find?_ofProgram_of_distinct distinct at_j label
      refine ⟨_, ⟨distinct, rfl⟩, trivial, l', ⟨l.text, j, l.start⟩, label', ?_, rfl⟩
      rw [← same, found]

/-! ## Encoding a statement -/

theorem operandValue_error_iff {labels : Labels} {operand : Lexeme} :
    (operandValue strict labels operand).result = .error e ↔
      strict = true ∧ labels.find? operand.text = none ∧ Word.ofText? operand.text = none ∧
        e = ⟨.invalidOperand, .one operand.span⟩ := by
  rw [operandValue]
  cases labels.find? operand.text with
  | some b => simp
  | none =>
    cases Word.ofText? operand.text with
    | some value => simp
    | none => cases strict <;> simp [eq_comm]

theorem allowed_iff {value : Word} : allowed m value = true ↔ m.InRange value.toInt := by
  rw [allowed, Mnemonic.InRange]
  cases m.takesAddress with
  | true =>
    simp only [if_true, Bool.and_eq_true, decide_eq_true_eq, memorySize]
    omega
  | false => simp

theorem inRange_zero (m : Mnemonic) : m.InRange 0 := by
  rw [Mnemonic.InRange]
  split <;> omega

/-- The word of an address is in range when the address is, also where a word does not hold it. -/
theorem inRange_wordOfAddress {address : Nat} :
    m.InRange (wordOfAddress address).toInt ↔ m.InRange address := by
  rw [toInt_wordOfAddress, Mnemonic.InRange, Mnemonic.InRange]
  split <;> omega

/-- Strict assembly finds an operand's value out of range when what it stands for is. -/
theorem outOfRange_iff {operand : Lexeme} :
    (∃ value, (operandValue true (Labels.ofProgram statements) operand).result = .ok value ∧
      allowed m value = false) ↔
      ∃ value, StandsFor statements (some operand) value ∧ ¬m.InRange value := by
  simp only [operandValue_ok_iff, ← Bool.not_eq_true, allowed_iff]
  constructor
  · rintro ⟨value, valued, outside⟩
    split at valued
    next b found =>
      obtain ⟨named, last⟩ := Labels.last_of_find?_ofProgram found
      rw [valued, inRange_wordOfAddress] at outside
      exact ⟨b.address, .label named last, outside⟩
    next integer absent read =>
      have unnamed := Labels.find?_ofProgram_eq_none_iff.1 absent
      rw [valued] at outside
      exact ⟨integer.toInt, .integer unnamed read, outside⟩
    next absent unread => exact absurd valued.1 (by decide)
  · rintro ⟨value, stands, outside⟩
    cases stands with
    | @label _ k named last =>
      obtain ⟨b, found, rfl⟩ := Option.map_eq_some_iff.1
        (Labels.address_find?_ofProgram_iff.2 ⟨named, last⟩)
      rw [found]
      exact ⟨_, rfl, fun inside => outside (inRange_wordOfAddress.1 inside)⟩
    | integer unnamed read =>
      rw [Labels.find?_ofProgram_eq_none_iff.2 unnamed, read]
      exact ⟨_, rfl, outside⟩
    | unread => exact absurd (inRange_zero m) outside

/-- What is wrong with an operand that counts, in strict assembly. -/
def OperandFault (statements : List Statement) (m : Mnemonic) (operand : Lexeme) (e : Error) :
    Prop :=
  ((∀ k, nameAt statements k ≠ some operand.text) ∧ Word.ofText? operand.text = none ∧
    e = ⟨.invalidOperand, .one operand.span⟩) ∨
  (∃ value, StandsFor statements (some operand) value ∧ ¬m.InRange value) ∧
    e = ⟨.operandOutOfRange, .one operand.span⟩

/-- A mnemonic is no unknown instruction, so only its operand can be at fault. -/
theorem faulty_iff_of_known (known : s.verb = .known m) : Faulty strict statements s e ↔
    strict = true ∧
      ((m.takesAddress = true ∧ s.operand = none ∧
          e = ⟨.missingOperand, .one s.instruction.span⟩) ∨
        m.usesOperand = true ∧ ∃ operand, s.operand = some operand ∧
          OperandFault statements m operand e) := by
  constructor
  · intro faulty
    cases faulty with
    | unknown unknown => exact absurd (Verb.ofText_eq_known_iff.1 known) (unknown m)
    | missing isStrict known' takes none =>
      cases known.symm.trans known'
      exact ⟨isStrict, .inl ⟨takes, none, rfl⟩⟩
    | invalid isStrict known' uses given unnamed unread =>
      cases known.symm.trans known'
      exact ⟨isStrict, .inr ⟨uses, _, given, .inl ⟨unnamed, unread, rfl⟩⟩⟩
    | outOfRange isStrict known' uses given stands outside =>
      cases known.symm.trans known'
      exact ⟨isStrict, .inr ⟨uses, _, given, .inr ⟨⟨_, stands, outside⟩, rfl⟩⟩⟩
  · rintro ⟨isStrict, ⟨takes, none, rfl⟩ | ⟨uses, operand, given, fault⟩⟩
    · exact .missing isStrict known takes none
    · rcases fault with ⟨unnamed, unread, rfl⟩ | ⟨⟨value, stands, outside⟩, rfl⟩
      · exact .invalid isStrict known uses given unnamed unread
      · exact .outOfRange isStrict known uses given stands outside

/-- An operand that counts is refused for what it is, or else for its value. -/
theorem valued_error_iff (statements : List Statement) (m : Mnemonic) (operand : Lexeme) :
    (operandValue true (Labels.ofProgram statements) operand >>= fun value =>
      if true && !allowed m value then Noted.fail ⟨.operandOutOfRange, .one operand.span⟩
      else pure (m.base + value)).result = .error e ↔ OperandFault statements m operand e := by
  rw [OperandFault, ← outOfRange_iff, Noted.result_bind, Noted.bind_error_iff,
    operandValue_error_iff, Labels.find?_ofProgram_eq_none_iff]
  simp only [ranged_error_iff, true_and]
  refine or_congr_right ?_
  constructor
  · rintro ⟨value, valued, outside, same⟩
    exact ⟨⟨value, valued, outside⟩, same⟩
  · rintro ⟨⟨value, valued, outside⟩, same⟩
    exact ⟨value, valued, outside, same⟩

theorem encodeWithOperand_error_iff :
    (encodeWithOperand true (Labels.ofProgram statements) s m).result = .error e ↔
      (m.takesAddress = true ∧ s.operand = none ∧
          e = ⟨.missingOperand, .one s.instruction.span⟩) ∨
        ∃ operand, s.operand = some operand ∧ OperandFault statements m operand e := by
  rw [encodeWithOperand]
  cases given : s.operand with
  | none =>
    by_cases takes : m.takesAddress = true
    · simpa [takes, Noted.bind_error_iff] using eq_comm
    · have fits : allowed m 0 = true := allowed_iff.2 (inRange_zero m)
      simp [takes, fits]
  | some operand =>
    simpa using valued_error_iff statements m operand

theorem encode_error_iff :
    (encode strict (Labels.ofProgram statements) s).result = .error e ↔
      Faulty strict statements s e := by
  cases verb : s.verb with
  | unknown name =>
    obtain ⟨rfl, unknown⟩ := Verb.ofText_eq_unknown_iff.1 verb
    rw [encode, verb]
    constructor
    · intro failed
      cases failed
      exact .unknown unknown
    · intro faulty
      cases faulty with
      | unknown => rfl
      | missing _ known | invalid _ known | outOfRange _ known => rw [verb] at known; cases known
  | known m =>
    rw [faulty_iff_of_known verb]
    cases strict with
    | false =>
      obtain ⟨word, encoded⟩ := exists_encode_of_known (Labels.ofProgram statements) verb
      simp [encoded]
    | true =>
      cases uses : m.usesOperand with
      | true =>
        rw [encode_of_usesOperand verb uses, encodeWithOperand_error_iff]
        simp
      | false =>
        have other : ¬(m.takesAddress = true ∨ m = .dat) := by
          rw [← Mnemonic.usesOperand_iff, uses]
          exact Bool.false_ne_true
        rw [encode_of_plain verb uses]
        simp [not_or.1 other]

theorem encodeAt_error_iff {k : Nat} :
    (encodeAt strict (Labels.ofProgram statements) s k).result = .error e ↔
      Offends strict statements k s e := by
  rw [Offends]
  by_cases full : strict = true ∧ 100 ≤ k
  · obtain ⟨rfl, beyond⟩ := full
    rw [if_pos ⟨rfl, beyond⟩, encodeAt]
    simpa [beyond, Noted.bind_error_iff] using eq_comm
  · rw [if_neg full, ← encode_error_iff]
    have inside : strict = true → k < memorySize := by simpa using full
    cases encoded : (encode strict (Labels.ofProgram statements) s).result with
    | ok word => simp [encodeAt_ok_iff.2 ⟨inside, encoded⟩]
    | error e' =>
      have fits : (strict && decide (memorySize ≤ k)) = false := by simpa using inside
      simp [encodeAt, fits, encoded, bind]

/-! ## Programs -/

/-- A statement that is not refused is accepted. -/
theorem exists_encodeAt_iff {k : Nat} :
    (∃ word, (encodeAt strict (Labels.ofProgram statements) s k).result = .ok word) ↔
      ∀ e, ¬Offends strict statements k s e := by
  simp only [← encodeAt_error_iff]
  cases (encodeAt strict (Labels.ofProgram statements) s k).result <;> simp

theorem object_error_iff {options : Options} {table : SymbolTable}
    (labels : table.labels = .ofProgram statements) :
    (ObjectFile.ofStatements options table statements).result = .error e ↔
      FirstOffence options.strict statements e := by
  simp only [ofStatements_error_iff, labels, encodeAt_error_iff, exists_encodeAt_iff, FirstOffence]

theorem symbolTable_error_iff {kept : Option Text} :
    (SymbolTable.ofStatements strict kept statements).result = .error e ↔
      strict = true ∧ FirstRepeat statements e := by
  cases strict with
  | true =>
    rw [SymbolTable.ofStatements, Noted.result_bind, Noted.bind_error_iff,
      ofStatements_strict_error_iff]
    simp
  | false =>
    have found : (SymbolTable.ofStatements false kept statements).result = .ok (symbolTable _ _) :=
      symbolTable_ok_iff.2 ⟨by simp, rfl⟩
    simp [found]

theorem assemble_error_iff {symbols : Bool} :
    (assemble { strict, symbols } source).result = .error e ↔
      (strict = true ∧ FirstRepeat (ofSource source) e) ∨
        ¬(strict = true ∧ Repeats (ofSource source)) ∧
          FirstOffence strict (ofSource source) e := by
  rw [result_assemble, Noted.bind_error_iff, symbolTable_error_iff]
  refine or_congr_right ?_
  simp only [symbolTable_ok_iff, repeats_iff, not_and, not_not]
  constructor
  · rintro ⟨table, ⟨distinct, rfl⟩, refused⟩
    exact ⟨distinct, (object_error_iff rfl).1 refused⟩
  · rintro ⟨distinct, refused⟩
    exact ⟨_, ⟨distinct, rfl⟩, (object_error_iff rfl).2 refused⟩

/-! ## The places of errors -/

section Written

variable (member : s ∈ ofSource source)
include member

theorem marks_of_mem_words {word : Lexeme} (said : word ∈ s.words) :
    Marks source word.span word.text :=
  marks_word ((placed_of_mem_ofSource member).occurs word said)
    (standsAlone_of_mem_words member word said)

theorem marks_instruction : Marks source s.instruction.span s.instruction.text :=
  marks_of_mem_words member (by simp [Statement.words])

theorem marks_operand {operand : Lexeme} (given : s.operand = some operand) :
    Marks source operand.span operand.text :=
  marks_of_mem_words member (by simp [Statement.words, given])

theorem marks_label {label : Lexeme} (given : s.label = some label) :
    Marks source label.span label.text :=
  marks_of_mem_words member (by simp [Statement.words, given])

/-- The place of a statement marks a text with its words. -/
theorem exists_marks_statement :
    ∃ text, Marks source s.span text ∧ lineTexts text = s.words.map Lexeme.text := by
  obtain ⟨line, onLine, read⟩ := List.mem_filterMap.1 member
  obtain ⟨first, last, head, final, span⟩ := s.span_eq
  rw [wordLines_tokens] at onLine
  rw [span]
  rw [words_ofWords? read] at head final ⊢
  exact exists_marks_words onLine head final

theorem Offends.pointsAt {k : Nat} (offends : Offends strict (ofSource source) k s e) :
    PointsAt source e := by
  rw [Offends] at offends
  split at offends
  next full =>
    rw [offends]
    exact ⟨s, member, rfl, exists_marks_statement member⟩
  next room =>
    cases offends with
    | unknown => exact ⟨s, member, rfl, marks_instruction member, rfl⟩
    | missing => exact ⟨s, member, rfl, marks_instruction member⟩
    | invalid _ _ _ given => exact ⟨s, member, _, given, rfl, marks_operand member given⟩
    | outOfRange _ _ _ given => exact ⟨s, member, _, given, rfl, marks_operand member given⟩

end Written

theorem FirstRepeat.pointsAt (refused : FirstRepeat (ofSource source) e) : PointsAt source e := by
  obtain @⟨j, k, s, s', l, l', earlier, at_j, at_k, label, label', same, -⟩ := refused
  have member := List.mem_of_getElem? at_j
  have member' := List.mem_of_getElem? at_k
  obtain ⟨line, line', below, onLine, onLine'⟩ := exists_lines earlier at_j at_k
  have first := onLine l (by simp [Statement.words, label])
  have second := onLine' l' (by simp [Statement.words, label'])
  have marks' := marks_label member' label'
  rw [← same] at marks'
  exact ⟨l.text, marks_label member label, marks', first.stop_le_start second below,
    s, s', l, l', member, member', label, label', rfl, rfl⟩

/-- Strict assembly refuses a program for the first label that is defined again, if there is one, and
else for the first statement at fault, as lenient assembly does. The places of the error mark the
words that it is about. -/
theorem refused_rightly (symbols : Bool) (source : Text) :
    let statements := ofSource source
    (∀ e, (assemble { strict := true, symbols } source).result = .error e ↔
      FirstRepeat statements e ∨ ¬Repeats statements ∧ FirstOffence true statements e) ∧
    (∀ e, (assemble { strict := false, symbols } source).result = .error e ↔
      FirstOffence false statements e) ∧
    ∀ strict e, (assemble { strict, symbols } source).result = .error e → PointsAt source e := by
  intro statements
  refine ⟨fun e => ?_, fun e => ?_, fun strict e refused => ?_⟩
  · simp [assemble_error_iff, statements]
  · simp [assemble_error_iff, statements]
  · rcases assemble_error_iff.1 refused with ⟨-, again⟩ | ⟨-, k, s, at_k, offends, -⟩
    · exact again.pointsAt
    · exact offends.pointsAt (List.mem_of_getElem? at_k)

/-- A label is defined twice, one instruction is no mnemonic, and two operands are at fault. -/
def muddledSource : Text := "// ü\nß LDA x\n\tß foo 1\nBRA".toList

theorem refused_rightly_muddled :
    ∃ again unknown : Error,
      again = ⟨.duplicateLabel, .two ⟨6, 8⟩ ⟨16, 18⟩⟩ ∧
      unknown = ⟨.unknownInstruction "FOO".toList, .one ⟨19, 22⟩⟩ ∧
      (assemble { strict := true } muddledSource).result = .error again ∧
      (assemble {} muddledSource).result = .error unknown ∧
      PointsAt muddledSource again ∧ PointsAt muddledSource unknown := by
  obtain ⟨-, -, points⟩ := refused_rightly false muddledSource
  have again : (assemble { strict := true } muddledSource).result =
      .error ⟨.duplicateLabel, .two ⟨6, 8⟩ ⟨16, 18⟩⟩ := by
    decide +kernel
  have unknown : (assemble {} muddledSource).result =
      .error ⟨.unknownInstruction "FOO".toList, .one ⟨19, 22⟩⟩ := by
    decide +kernel
  exact ⟨_, _, rfl, rfl, again, unknown, points true _ again, points false _ unknown⟩

end Assembly
end LittleMan
