import LittleMan.Proofs.Assembly.Meaning
import LittleMan.Proofs.Statement
import Mathlib.Algebra.Group.Nat.Defs

/-!
# What lenient assembly makes of a program

Lenient assembly refuses a program only for a word that stands as instruction and is no mnemonic. Of
every other program it makes the image that the statements describe, each by itself and by what the
labels of all of them name (`assemble_lenient_iff`).
-/

namespace LittleMan.Assembly

open Statement

/-- The number that an operand stands for: the address of the last statement that it labels, even
one beyond the memory, or else the integer that it is. Any other operand stands for 0, and so does a
missing one. -/
inductive StandsFor (statements : List Statement) : Option Lexeme → Int → Prop
  | label {operand : Lexeme} {k : Nat} (named : nameAt statements k = some operand.text)
      (last : ∀ j, k < j → nameAt statements j ≠ some operand.text) :
      StandsFor statements (some operand) k
  | integer {operand : Lexeme} {value : Word}
      (unnamed : ∀ k, nameAt statements k ≠ some operand.text)
      (read : Word.ofText? operand.text = some value) :
      StandsFor statements (some operand) value.toInt
  | unread {operand : Lexeme} (unnamed : ∀ k, nameAt statements k ≠ some operand.text)
      (unread : Word.ofText? operand.text = none) : StandsFor statements (some operand) 0
  | missing : StandsFor statements none 0

/-- The word that a statement comes to. Where an operand counts, it is added to the base of the
instruction, and the sum wraps to 32 bits. -/
inductive ComesTo (statements : List Statement) (s : Statement) : Word → Prop
  | inp (known : s.verb = .known .inp) : ComesTo statements s 901
  | out (known : s.verb = .known .out) : ComesTo statements s 902
  | hlt (known : s.verb = .known .hlt) : ComesTo statements s 0
  | withOperand {m : Mnemonic} {value : Int} (known : s.verb = .known m)
      (counts : m.takesAddress = true ∨ m = .dat)
      (stands : StandsFor statements s.operand value) :
      ComesTo statements s (Int32.ofInt (m.base.toInt + value))

/-- The words of all cells, and how many of them the program wrote. -/
structure ImageOf (statements : List Statement) (words : Memory) (length : Nat) : Prop where
  length_eq : length = min statements.length 100
  written : ∀ (k : Nat) (inside : k < memorySize) (s : Statement), statements[k]? = some s →
    ComesTo statements s words[k]
  unwritten : ∀ (k : Nat) (inside : k < memorySize), length ≤ k → words[k] = 0

/-- The error names the first statement whose instruction is no mnemonic, wherever it lies. -/
def RefusedFor (statements : List Statement) (e : Error) : Prop :=
  ∃ (k : Nat) (s : Statement), statements[k]? = some s ∧ s.verb.isKnown = false ∧
    (∀ j < k, ∀ s', statements[j]? = some s' → s'.verb.isKnown = true) ∧
    e = ⟨.unknownInstruction (Text.upper s.instruction.text), .one s.instruction.span⟩

variable {statements : List Statement} {s : Statement} {m : Mnemonic} {word : Word} {e : Error}

/-! ## Operands -/

theorem wordOfAddress_eq_ofInt {address : Nat} (small : address < 2 ^ 31) :
    wordOfAddress address = Int32.ofInt address := by
  rw [wordOfAddress, Int.min_eq_left (by omega)]

theorem base_add_ofInt (value : Int) :
    m.base + Int32.ofInt value = Int32.ofInt (m.base.toInt + value) := by
  rw [Int32.ofInt_add, Int32.ofInt_toInt]

theorem standsFor_of_operandValue {operand : Lexeme} (few : statements.length < 2 ^ 31)
    (valued : (operandValue false (Labels.ofProgram statements) operand).result = .ok word) :
    ∃ value, StandsFor statements (some operand) value ∧ word = Int32.ofInt value := by
  rw [operandValue_ok_iff] at valued
  split at valued
  next b found =>
    obtain ⟨named, last⟩ := Labels.last_of_find?_ofProgram found
    have inside := lt_length_of_nameAt named
    exact ⟨b.address, .label named last, valued.trans (wordOfAddress_eq_ofInt (by omega))⟩
  next value absent read =>
    have unnamed := Labels.find?_ofProgram_eq_none_iff.1 absent
    exact ⟨value.toInt, .integer unnamed read, by rw [valued, Int32.ofInt_toInt]⟩
  next absent unread =>
    have unnamed := Labels.find?_ofProgram_eq_none_iff.1 absent
    exact ⟨0, .unread unnamed unread, valued.2⟩

theorem exists_operandValue (labels : Labels) (operand : Lexeme) :
    ∃ word, (operandValue false labels operand).result = .ok word := by
  simp only [operandValue_ok_iff]
  split <;> simp

/-! ## Statements -/

theorem comesTo_of_encode (few : statements.length < 2 ^ 31)
    (encoded : (encode false (Labels.ofProgram statements) s).result = .ok word) :
    ComesTo statements s word := by
  obtain ⟨m, known, encoded⟩ := encode_ok_iff.1 encoded
  split at encoded
  next plain =>
    subst encoded
    rcases plain with rfl | rfl | rfl
    · exact .inp known
    · exact .out known
    · exact .hlt known
  next others =>
    have counts : m.takesAddress = true ∨ m = .dat := by
      cases m <;> simp_all [Mnemonic.takesAddress]
    obtain ⟨value, operandIs, -, rfl⟩ := encodeWithOperand_ok_iff.1 encoded
    cases given : s.operand with
    | none =>
      rw [given] at operandIs
      obtain ⟨-, rfl⟩ := operandIs
      rw [show (0 : Word) = Int32.ofInt 0 from rfl, base_add_ofInt]
      exact .withOperand known counts (given ▸ .missing)
    | some operand =>
      rw [given] at operandIs
      obtain ⟨value, stands, rfl⟩ := standsFor_of_operandValue few operandIs
      rw [base_add_ofInt]
      exact .withOperand known counts (given ▸ stands)

/-- Whatever its operand, a mnemonic is accepted. -/
theorem exists_encode_of_known (labels : Labels) (known : s.verb = .known m) :
    ∃ word, (encode false labels s).result = .ok word := by
  by_cases plain : m = .inp ∨ m = .out ∨ m = .hlt
  · exact ⟨m.base, encode_ok_iff.2 ⟨m, known, by rw [if_pos plain]⟩⟩
  · obtain ⟨value, operandIs⟩ : ∃ value, OperandIs false labels m value s.operand := by
      cases s.operand with
      | none => exact ⟨0, by simp, rfl⟩
      | some operand => exact exists_operandValue labels operand
    have encoded := encodeWithOperand_ok_iff.2 ⟨value, operandIs, by simp, rfl⟩
    exact ⟨_, encode_ok_iff.2 ⟨m, known, by rw [if_neg plain]; exact encoded⟩⟩

theorem exists_encode_lenient_iff {labels : Labels} :
    (∃ word, (encode false labels s).result = .ok word) ↔ s.verb.isKnown = true := by
  cases verb : s.verb with
  | known m => simpa [Verb.isKnown] using exists_encode_of_known labels verb
  | unknown name => simp [encode, verb, Verb.isKnown]

theorem encode_lenient_error_iff {labels : Labels} :
    (encode false labels s).result = .error e ↔
      s.verb.isKnown = false ∧
        e = ⟨.unknownInstruction (Text.upper s.instruction.text), .one s.instruction.span⟩ := by
  cases verb : s.verb with
  | known m =>
    obtain ⟨word, encoded⟩ := exists_encode_of_known labels verb
    simp [encoded, Verb.isKnown]
  | unknown name =>
    obtain ⟨rfl, -⟩ := Verb.ofText_eq_unknown_iff.1 verb
    simp [encode, verb, Verb.isKnown, eq_comm]

/-- In lenient assembly it makes no difference where a statement lies. -/
theorem encodeAt_lenient (labels : Labels) (s : Statement) (address : Nat) :
    (encodeAt false labels s address).result = (encode false labels s).result := by
  cases encoded : (encode false labels s).result with
  | error e => simp [encodeAt, encoded, bind]
  | ok word => exact encodeAt_ok_iff.2 ⟨by simp, encoded⟩

/-! ## Programs -/

theorem imageOf_of_assemble {symbols : Bool} {source : Text} {object : ObjectFile}
    (few : (Statement.ofSource source).length < 2 ^ 31)
    (accepted : (assemble { strict := false, symbols } source).result = .ok object) :
    ImageOf (Statement.ofSource source) object.words object.length := by
  obtain ⟨length, unwritten, -⟩ := object_of_assemble accepted
  refine ⟨length, fun k inside s at_k => ?_, unwritten⟩
  exact comesTo_of_encode few (encode_of_assemble accepted at_k inside)

theorem assemble_lenient_error_iff {symbols : Bool} {source : Text} :
    (assemble { strict := false, symbols } source).result = .error e ↔
      RefusedFor (Statement.ofSource source) e := by
  have tabled : (SymbolTable.ofStatements false (if symbols then some source else none)
      (Statement.ofSource source)).result = .ok (symbolTable _ _) :=
    symbolTable_ok_iff.2 ⟨by simp, rfl⟩
  simp only [assemble, Noted.result_bind, Noted.result_tell, Noted.ok_bind, tabled,
    ofStatements_error_iff, encodeAt_lenient, encode_lenient_error_iff, exists_encode_lenient_iff,
    RefusedFor]
  refine exists_congr fun k => exists_congr fun s => and_congr_right fun _ => ?_
  rw [and_assoc]
  exact and_congr_right fun _ => and_comm

/-- The words of an object file, and how many the program wrote. -/
def ObjectFile.image (o : ObjectFile) : Memory × Nat := (o.words, o.length)

/-- To keep the symbol table makes no difference to the words, or to why a program is refused. -/
theorem image_assemble (strict symbols : Bool) (source : Text) :
    (assemble { strict, symbols } source).result.map ObjectFile.image =
      (assemble { strict } source).result.map ObjectFile.image := by
  simp only [assemble, SymbolTable.ofStatements, ObjectFile.ofStatements, Noted.result_bind,
    apply_ite Noted.result, Noted.result_tell, Noted.ok_bind, Noted.result_pure, ite_self]
  cases (Labels.ofStatements strict (Statement.ofSource source)).result with
  | error e => rfl
  | ok labels =>
    simp only [Noted.ok_bind, Noted.result_mapM]
    cases (Statement.ofSource source).zipIdx.mapM fun x =>
        (encodeAt strict labels x.1 x.2).result with
    | error e => rfl
    | ok words => rfl

/-- Lenient assembly refuses a program exactly when some instruction is no mnemonic, and then it
names the first such. Of every other program it makes the image that its statements describe. To keep
the symbol table changes neither the words nor the error. -/
theorem assemble_lenient_iff (symbols : Bool) {source : Text}
    (few : (Statement.ofSource source).length < 2 ^ 31) :
    let statements := Statement.ofSource source
    let result := (assemble { strict := false, symbols } source).result
    ((∃ e, result = .error e) ↔ ∃ s ∈ statements, s.verb.isKnown = false) ∧
    (∀ e, result = .error e ↔ RefusedFor statements e) ∧
    (∀ object, result = .ok object → ImageOf statements object.words object.length) ∧
    ∀ other, (assemble { strict := false, symbols := other } source).result.map ObjectFile.image =
      result.map ObjectFile.image := by
  intro statements result
  refine ⟨⟨?_, ?_⟩, fun e => assemble_lenient_error_iff, fun object => imageOf_of_assemble few,
    fun other => ?_⟩
  · rintro ⟨e, refused⟩
    obtain ⟨k, s, at_k, unknown, -⟩ := assemble_lenient_error_iff.1 refused
    exact ⟨s, List.mem_of_getElem? at_k, unknown⟩
  · rintro ⟨s, member, unknown⟩
    cases assembled : result with
    | error e => exact ⟨e, rfl⟩
    | ok object =>
      have known := known_of_assemble assembled s member
      rw [unknown] at known
      cases known
  · rw [image_assemble false other, image_assemble false symbols]

/-- A label is defined twice, once beyond what it is used for, and another looks like a number. -/
def tangledSource : Text := "7 LDA A
A BRA 7
A SUB 2147483647
OUT
DAT B".toList

theorem assemble_lenient_iff_tangled :
    (Statement.ofSource tangledSource).length < 2 ^ 31 ∧
      ∃ object, (assemble {} tangledSource).result = .ok object ∧
        ImageOf (Statement.ofSource tangledSource) object.words object.length := by
  have few : (Statement.ofSource tangledSource).length < 2 ^ 31 := by decide +kernel
  obtain ⟨unknowns, -, image, -⟩ := assemble_lenient_iff false few
  refine ⟨few, ?_⟩
  cases assembled : (assemble {} tangledSource).result with
  | ok object => exact ⟨object, rfl, image object assembled⟩
  | error e =>
    obtain ⟨s, member, unknown⟩ := unknowns.1 ⟨e, assembled⟩
    have known : ∀ s ∈ Statement.ofSource tangledSource, s.verb.isKnown = true := by decide +kernel
    rw [known s member] at unknown
    cases unknown

end LittleMan.Assembly
