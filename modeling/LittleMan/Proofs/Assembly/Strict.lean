import LittleMan.Proofs.Assembly.Meaning

/-!
# What strict assembly accepts

Strict assembly accepts a program when its labels all differ, when it fits in memory, and when each
of its statements is permitted: an instruction with an operand that it can use, or data in range.
Whatever it accepts, lenient assembly makes the same object file of (`assemble_strict_iff`).
-/

namespace LittleMan.Assembly

open Statement

/-- The operand is a label of the program, or else an integer from `low` to `high`. -/
def Resolves (statements : List Statement) (low high : Int) (operand : Text) : Prop :=
  (∃ k, nameAt statements k = some operand) ∨
    ∃ value, Word.ofText? operand = some value ∧ low ≤ value.toInt ∧ value.toInt ≤ high

/-- Strict assembly has nothing against the statement. Input, output and halt may have any operand
or none. -/
def Permitted (statements : List Statement) (s : Statement) : Prop :=
  ∃ m, s.verb = .known m ∧
    (m.takesAddress = true →
      ∃ operand, s.operand = some operand ∧ Resolves statements 0 99 operand.text) ∧
    (m = .dat →
      ∀ operand, s.operand = some operand → Resolves statements (-999) 999 operand.text)

/-- What strict assembly asks of a program. -/
structure Acceptable (statements : List Statement) : Prop where
  distinct : ∀ name j k, nameAt statements j = some name → nameAt statements k = some name → j = k
  fits : statements.length ≤ 100
  permitted : ∀ s ∈ statements, Permitted statements s

variable {statements : List Statement} {s : Statement} {m : Mnemonic} {word : Word}

/-! ## Statements -/

/-- In a program that fits in memory, labels name cells, so they are in every range of operands. -/
theorem operandValue_in_range_iff (fits : statements.length ≤ 100) {low high : Int}
    (start : low ≤ 0) (stop : 99 ≤ high) {operand : Lexeme} :
    (∃ value, (operandValue true (Labels.ofProgram statements) operand).result = .ok value ∧
      low ≤ value.toInt ∧ value.toInt ≤ high) ↔ Resolves statements low high operand.text := by
  cases found : (Labels.ofProgram statements).find? operand.text with
  | some b =>
    obtain ⟨named, -⟩ := Labels.last_of_find?_ofProgram found
    have inside := lt_length_of_nameAt named
    simp only [operandValue_ok_iff, found, Resolves]
    constructor
    · intro _
      exact .inl ⟨b.address, named⟩
    · intro _
      refine ⟨wordOfAddress b.address, rfl, ?_⟩
      rw [toInt_wordOfAddress]
      omega
  | none =>
    have unnamed := Labels.find?_ofProgram_eq_none_iff.1 found
    have noLabel : ¬ ∃ k, nameAt statements k = some operand.text := by
      rintro ⟨k, named⟩
      exact unnamed k named
    simp only [operandValue_ok_iff, found, Resolves, noLabel, false_or]
    cases Word.ofText? operand.text <;> simp

theorem exists_encodeWithOperand_iff {labels : Labels} :
    (∃ word, (encodeWithOperand true labels s m).result = .ok word) ↔
      ∃ value, OperandIs true labels m value s.operand ∧ allowed m value = true := by
  constructor
  · rintro ⟨word, encoded⟩
    obtain ⟨value, operandIs, fits, -⟩ := encodeWithOperand_ok_iff.1 encoded
    exact ⟨value, operandIs, fits rfl⟩
  · rintro ⟨value, operandIs, fits⟩
    exact ⟨_, encodeWithOperand_ok_iff.2 ⟨value, operandIs, fun _ => fits, rfl⟩⟩

section Operands

variable (fits : statements.length ≤ 100)
include fits

/-- An instruction that takes an address needs an operand that is one. -/
theorem exists_addressOperand_iff (takes : m.takesAddress = true) (operand : Option Lexeme) :
    (∃ value, OperandIs true (Labels.ofProgram statements) m value operand ∧
      allowed m value = true) ↔
      ∃ written, operand = some written ∧ Resolves statements 0 99 written.text := by
  cases operand with
  | none => simp [OperandIs, takes]
  | some written =>
    have range : ∀ value, allowed m value = true ↔ 0 ≤ value.toInt ∧ value.toInt ≤ 99 := by
      intro value
      simp only [allowed, takes, if_true, Bool.and_eq_true, decide_eq_true_eq, memorySize]
      omega
    simp only [OperandIs, range, Option.some.injEq, exists_eq_left']
    exact operandValue_in_range_iff fits (by decide) (by decide)

/-- Data without an operand is 0, which is in range. -/
theorem exists_dataOperand_iff (operand : Option Lexeme) :
    (∃ value, OperandIs true (Labels.ofProgram statements) .dat value operand ∧
      allowed .dat value = true) ↔
      ∀ written, operand = some written → Resolves statements (-999) 999 written.text := by
  have range : ∀ value, allowed .dat value = true ↔ -999 ≤ value.toInt ∧ value.toInt ≤ 999 := by
    simp [allowed, Mnemonic.takesAddress]
  cases operand with
  | none =>
    simp only [OperandIs, range, reduceCtorEq, false_implies, implies_true, iff_true]
    exact ⟨0, ⟨fun _ => rfl, rfl⟩, by decide, by decide⟩
  | some written =>
    simp only [OperandIs, range, Option.some.injEq, forall_eq']
    exact operandValue_in_range_iff fits (by decide) (by decide)

theorem exists_encode_iff :
    (∃ word, (encode true (Labels.ofProgram statements) s).result = .ok word) ↔
      Permitted statements s := by
  simp only [encode_ok_iff, Permitted]
  rw [exists_comm]
  refine exists_congr fun m => ?_
  rw [exists_and_left]
  refine and_congr_right fun _ => ?_
  cases m with
  | inp | out | hlt => simp [Mnemonic.takesAddress]
  | dat =>
    simp only [reduceCtorEq, or_self, if_false, exists_encodeWithOperand_iff]
    rw [exists_dataOperand_iff fits]
    simp [Mnemonic.takesAddress]
  | _ =>
    simp only [reduceCtorEq, or_self, if_false, exists_encodeWithOperand_iff]
    rw [exists_addressOperand_iff fits rfl]
    simp [Mnemonic.takesAddress]

end Operands

/-! ## Lenient assembly of the same program -/

section Lenient

variable {labels : Labels}

theorem operandValue_lenient {operand : Lexeme}
    (valued : (operandValue true labels operand).result = .ok word) :
    (operandValue false labels operand).result = .ok word := by
  rw [operandValue_ok_iff] at valued ⊢
  split at valued
  next => exact valued
  next => exact valued
  next => exact absurd valued.1 (by decide)

theorem encodeWithOperand_lenient
    (encoded : (encodeWithOperand true labels s m).result = .ok word) :
    (encodeWithOperand false labels s m).result = .ok word := by
  obtain ⟨value, operandIs, -, same⟩ := encodeWithOperand_ok_iff.1 encoded
  refine encodeWithOperand_ok_iff.2 ⟨value, ?_, by simp, same⟩
  cases given : s.operand with
  | none =>
    rw [given] at operandIs
    exact ⟨by simp, operandIs.2⟩
  | some operand =>
    rw [given] at operandIs
    exact operandValue_lenient operandIs

theorem encode_lenient (encoded : (encode true labels s).result = .ok word) :
    (encode false labels s).result = .ok word := by
  obtain ⟨m, known, encoded⟩ := encode_ok_iff.1 encoded
  refine encode_ok_iff.2 ⟨m, known, ?_⟩
  split at encoded
  next plain => rwa [if_pos plain]
  next others => rw [if_neg others]; exact encodeWithOperand_lenient encoded

end Lenient

/-! ## Programs -/

theorem nodup_names (distinct : ∀ name j k,
    nameAt statements j = some name → nameAt statements k = some name → j = k) :
    (statements.filterMap name?).Nodup := by
  induction statements with
  | nil => simp
  | cons s rest ih =>
    have restDistinct := ih fun name j k first second =>
      Nat.succ.inj (distinct name (j + 1) (k + 1) first second)
    cases named : s.name? with
    | none => rwa [List.filterMap_cons_none named]
    | some own =>
      rw [List.filterMap_cons_some named, List.nodup_cons]
      refine ⟨fun again => ?_, restDistinct⟩
      obtain ⟨k, found⟩ := mem_names_iff.1 again
      have same := distinct own 0 (k + 1) (by simpa using named) (by simpa using found)
      cases same

theorem assemble_lenient {symbols : Bool} {source : Text} {object : ObjectFile}
    (accepted : (assemble { strict := true, symbols } source).result = .ok object) :
    (assemble { strict := false, symbols } source).result = .ok object := by
  obtain ⟨table, tabled, built⟩ := assemble_ok_iff.1 accepted
  obtain ⟨-, tabled⟩ := symbolTable_ok_iff.1 tabled
  refine assemble_ok_iff.2 ⟨table, symbolTable_ok_iff.2 ⟨by simp, tabled⟩, ?_⟩
  obtain ⟨words, length, each, same⟩ := ofStatements_ok_iff.1 built
  refine ofStatements_ok_iff.2 ⟨words, length, ?_, same⟩
  intro k s at_k
  obtain ⟨word, at_word, encoded⟩ := each k s at_k
  obtain ⟨-, encoded⟩ := encodeAt_ok_iff.1 encoded
  exact ⟨word, at_word, encodeAt_ok_iff.2 ⟨by simp, encode_lenient encoded⟩⟩

theorem acceptable_of_assemble {symbols : Bool} {source : Text} {object : ObjectFile}
    (accepted : (assemble { strict := true, symbols } source).result = .ok object) :
    Acceptable (Statement.ofSource source) := by
  obtain ⟨table, tabled, built⟩ := assemble_ok_iff.1 accepted
  obtain ⟨distinct, labels⟩ := labels_of_symbolTable tabled
  have each : ∀ k s, (Statement.ofSource source)[k]? = some s → k < 100 ∧
      ∃ word, (encode true (Labels.ofProgram (Statement.ofSource source)) s).result = .ok word := by
    intro k s at_k
    obtain ⟨word, encoded⟩ := exists_object_iff.1 ⟨object, built⟩ k s at_k
    obtain ⟨inside, encoded⟩ := encodeAt_ok_iff.1 encoded
    exact ⟨inside rfl, word, labels ▸ encoded⟩
  have fits : (Statement.ofSource source).length ≤ 100 := by
    refine Nat.le_of_not_lt fun tooMany => ?_
    exact absurd (each 100 _ (List.getElem?_eq_getElem tooMany)).1 (by decide)
  refine ⟨fun name j k => nameAt_injective (distinct rfl), fits, fun s member => ?_⟩
  obtain ⟨k, at_k⟩ := List.mem_iff_getElem?.1 member
  exact (exists_encode_iff fits).1 (each k s at_k).2

theorem exists_assemble_of_acceptable (symbols : Bool) {source : Text}
    (acceptable : Acceptable (Statement.ofSource source)) :
    ∃ object, (assemble { strict := true, symbols } source).result = .ok object := by
  have distinct := nodup_names acceptable.distinct
  have tabled : (SymbolTable.ofStatements true (if symbols then some source else none)
      (Statement.ofSource source)).result = .ok (symbolTable _ _) :=
    symbolTable_ok_iff.2 ⟨fun _ => distinct, rfl⟩
  have each : ∀ k s, (Statement.ofSource source)[k]? = some s → ∃ word,
      (encodeAt true (Labels.ofProgram (Statement.ofSource source)) s k).result = .ok word := by
    intro k s at_k
    obtain ⟨inside, _⟩ := List.getElem?_eq_some_iff.1 at_k
    have permitted := acceptable.permitted s (List.mem_of_getElem? at_k)
    obtain ⟨word, encoded⟩ := (exists_encode_iff acceptable.fits).2 permitted
    refine ⟨word, encodeAt_ok_iff.2 ⟨fun _ => ?_, encoded⟩⟩
    exact Nat.lt_of_lt_of_le inside acceptable.fits
  obtain ⟨object, built⟩ : ∃ object, (ObjectFile.ofStatements { strict := true, symbols }
      (symbolTable (if symbols then some source else none) (Statement.ofSource source))
      (Statement.ofSource source)).result = .ok object :=
    exists_object_iff.2 each
  exact ⟨object, assemble_ok_iff.2 ⟨_, tabled, built⟩⟩

/-- Strict assembly accepts the acceptable programs and no others, and lenient assembly makes the
same words, length and symbol table of each. -/
theorem assemble_strict_iff (symbols : Bool) (source : Text) :
    ((∃ object, (assemble { strict := true, symbols } source).result = .ok object) ↔
      Acceptable (Statement.ofSource source)) ∧
    ∀ object, (assemble { strict := true, symbols } source).result = .ok object →
      (assemble { strict := false, symbols } source).result = .ok object := by
  refine ⟨⟨?_, exists_assemble_of_acceptable symbols⟩, fun object => assemble_lenient⟩
  rintro ⟨object, accepted⟩
  exact acceptable_of_assemble accepted

end LittleMan.Assembly
