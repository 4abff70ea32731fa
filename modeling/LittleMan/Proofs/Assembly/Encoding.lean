import LittleMan.Assembly.ObjectFile
import LittleMan.Proofs.Assembly.Labels

/-!
# When a program is assembled, and to which words

The conditions under which an operand, a statement and a program are accepted, and the words they
come to (`operandValue_ok_iff`, `encode_ok_iff`, `assemble_ok_iff`). A program whose labels are
found is refused for the first statement that is (`ofStatements_error_iff`).
-/

namespace LittleMan.Assembly

variable {strict : Bool} {labels : Labels} {s : Statement} {m : Mnemonic} {word : Word}

/-- An operand has the value of the label that it is, or else of the integer that it is. In lenient
assembly every other operand has the value 0. -/
theorem operandValue_ok_iff {operand : Lexeme} :
    (operandValue strict labels operand).result = .ok word ↔
      match labels.find? operand.text, Word.ofText? operand.text with
      | some b, _ => word = wordOfAddress b.address
      | none, some value => word = value
      | none, none => strict = false ∧ word = 0 := by
  unfold operandValue
  split
  next b found => simp [found, eq_comm]
  next absent =>
    split
    next value read => simp [absent, read, eq_comm]
    next unread => cases strict <;> simp [absent, unread, eq_comm]

/-- The value that is added to the base of an instruction. -/
def OperandIs (strict : Bool) (labels : Labels) (m : Mnemonic) (value : Word) :
    Option Lexeme → Prop
  | some operand => (operandValue strict labels operand).result = .ok value
  | none => (strict = true → m.takesAddress = false) ∧ value = 0

/-- The check of an operand's value, and the word it comes to. -/
theorem ranged_ok_iff {value : Word} {e : Error} :
    (if strict && !allowed m value then Noted.fail e else pure (m.base + value)).result = .ok word ↔
      (strict = true → allowed m value = true) ∧ word = m.base + value := by
  cases strict <;> cases fits : allowed m value <;> simp [eq_comm]

theorem ranged_error_iff {value : Word} {e e' : Error} :
    (if strict && !allowed m value then Noted.fail e' else pure (m.base + value)).result =
      .error e ↔ strict = true ∧ allowed m value = false ∧ e = e' := by
  cases strict <;> cases fits : allowed m value <;> simp [eq_comm]

theorem encodeWithOperand_ok_iff :
    (encodeWithOperand strict labels s m).result = .ok word ↔
      ∃ value, OperandIs strict labels m value s.operand ∧
        (strict = true → allowed m value = true) ∧ word = m.base + value := by
  unfold encodeWithOperand
  cases operand : s.operand with
  | some operand =>
    simp only [Noted.result_bind, Noted.bind_ok_iff, ranged_ok_iff, OperandIs]
  | none =>
    by_cases missing : strict = true ∧ m.takesAddress = true
    · obtain ⟨isStrict, takes⟩ := missing
      simp [isStrict, takes, OperandIs, Noted.bind_ok_iff]
    · have given : strict = true → m.takesAddress = false := by simpa using missing
      have skips : (strict && m.takesAddress) = false := by simpa using given
      simp only [skips, Bool.false_eq_true, if_false, pure_bind, ranged_ok_iff, OperandIs]
      constructor
      · exact fun fits => ⟨0, ⟨given, rfl⟩, fits⟩
      · rintro ⟨value, ⟨-, rfl⟩, fits⟩
        exact fits

/-- Input, output and halt come to their own word. -/
theorem encode_ok_iff :
    (encode strict labels s).result = .ok word ↔
      ∃ m, s.verb = .known m ∧
        if m = .inp ∨ m = .out ∨ m = .hlt then word = m.base
        else (encodeWithOperand strict labels s m).result = .ok word := by
  unfold encode
  split
  next name unknown => simp [unknown]
  next m known => cases m <;> simp [known, eq_comm]

theorem encodeAt_ok_iff {address : Nat} :
    (encodeAt strict labels s address).result = .ok word ↔
      (strict = true → address < memorySize) ∧ (encode strict labels s).result = .ok word := by
  unfold encodeAt
  by_cases full : strict = true ∧ memorySize ≤ address
  · obtain ⟨isStrict, beyond⟩ := full
    simp [isStrict, beyond, Noted.bind_ok_iff, Nat.not_lt.2 beyond]
  · have inside : strict = true → address < memorySize := by simpa using full
    have fits : (strict && decide (memorySize ≤ address)) = false := by simpa using inside
    simp only [fits, Bool.false_eq_true, if_false, Noted.result_bind, apply_ite Noted.result,
      Noted.result_tell, Noted.ok_bind, Noted.result_pure, ite_self, Noted.bind_ok_iff]
    constructor
    · rintro ⟨_, accepted, same⟩
      cases same
      exact ⟨inside, accepted⟩
    · rintro ⟨-, accepted⟩
      exact ⟨word, accepted, rfl⟩

/-- A statement is numbered by where it stands. -/
theorem getElem?_zipIdx_iff {statements : List Statement} {k : Nat} {x : Statement × Nat} :
    statements.zipIdx[k]? = some x ↔ statements[k]? = some x.1 ∧ x.2 = k := by
  obtain ⟨s, address⟩ := x
  cases at_k : statements[k]? <;> simp [List.getElem?_zipIdx, at_k, eq_comm]

section Programs

variable {options : Options} {table : SymbolTable} {statements : List Statement}

theorem ofStatements_ok_iff {object : ObjectFile} :
    (ObjectFile.ofStatements options table statements).result = .ok object ↔
      ∃ words : List Word, words.length = statements.length ∧
        (∀ (k : Nat) (s : Statement), statements[k]? = some s → ∃ word, words[k]? = some word ∧
          (encodeAt options.strict table.labels s k).result = .ok word) ∧
        object = ⟨Memory.ofWords words, min words.length memorySize,
          if options.symbols then some table else none⟩ := by
  unfold ObjectFile.ofStatements
  simp only [Noted.result_bind, apply_ite Noted.result, Noted.result_tell, Noted.ok_bind,
    Noted.result_pure, ite_self, Noted.bind_ok_iff, Noted.result_mapM, Noted.mapM_ok_iff,
    getElem?_zipIdx_iff]
  refine exists_congr fun words => ?_
  simp only [List.length_zipIdx, and_assoc, Except.ok.injEq, eq_comm (a := object)]
  refine and_congr_right fun _ => and_congr_left fun _ => ?_
  constructor
  · intro each k s at_k
    exact each k (s, k) ⟨at_k, rfl⟩
  · rintro each k ⟨s, _⟩ ⟨at_k, rfl⟩
    exact each _ s at_k

theorem ofStatements_error_iff {e : Error} :
    (ObjectFile.ofStatements options table statements).result = .error e ↔
      ∃ (k : Nat) (s : Statement), statements[k]? = some s ∧
        (encodeAt options.strict table.labels s k).result = .error e ∧
        ∀ j < k, ∀ s', statements[j]? = some s' →
          ∃ word, (encodeAt options.strict table.labels s' j).result = .ok word := by
  unfold ObjectFile.ofStatements
  simp only [Noted.result_bind, apply_ite Noted.result, Noted.result_tell, Noted.ok_bind,
    Noted.result_pure, ite_self, Noted.bind_error_iff, Noted.result_mapM, Noted.mapM_error_iff,
    getElem?_zipIdx_iff, reduceCtorEq, and_false, exists_false, or_false]
  constructor
  · rintro ⟨k, ⟨s, _⟩, ⟨at_k, rfl⟩, failed, before⟩
    exact ⟨_, s, at_k, failed, fun j earlier s' at_j => before j earlier (s', j) ⟨at_j, rfl⟩⟩
  · rintro ⟨k, s, at_k, failed, before⟩
    refine ⟨k, (s, k), ⟨at_k, rfl⟩, failed, ?_⟩
    rintro j earlier ⟨s', _⟩ ⟨at_j, rfl⟩
    exact before _ earlier s' at_j

/-- There is an object file if each statement is accepted where it stands. -/
theorem exists_object_iff :
    (∃ object, (ObjectFile.ofStatements options table statements).result = .ok object) ↔
      ∀ k s, statements[k]? = some s →
        ∃ word, (encodeAt options.strict table.labels s k).result = .ok word := by
  constructor
  · rintro ⟨object, built⟩ k s at_k
    obtain ⟨words, -, each, -⟩ := ofStatements_ok_iff.1 built
    obtain ⟨word, -, encoded⟩ := each k s at_k
    exact ⟨word, encoded⟩
  · intro each
    cases built : (ObjectFile.ofStatements options table statements).result with
    | ok object => exact ⟨object, rfl⟩
    | error e =>
      obtain ⟨k, s, at_k, failed, -⟩ := ofStatements_error_iff.1 built
      obtain ⟨word, encoded⟩ := each k s at_k
      cases encoded.symm.trans failed

end Programs

/-- Labels are found first, and then the words of the statements. -/
theorem result_assemble (options : Options) (source : Text) :
    (assemble options source).result =
      (SymbolTable.ofStatements options.strict (if options.symbols then some source else none)
        (Statement.ofSource source)).result >>= fun table =>
          (ObjectFile.ofStatements options table (Statement.ofSource source)).result := by
  simp only [assemble, Noted.result_bind, Noted.result_tell, Noted.ok_bind]

/-- A program is assembled when its labels are found and each statement is accepted. -/
theorem assemble_ok_iff {options : Options} {source : Text} {object : ObjectFile} :
    (assemble options source).result = .ok object ↔ ∃ table,
      (SymbolTable.ofStatements options.strict (if options.symbols then some source else none)
        (Statement.ofSource source)).result = .ok table ∧
      (ObjectFile.ofStatements options table (Statement.ofSource source)).result = .ok object := by
  rw [result_assemble, Noted.bind_ok_iff]

end LittleMan.Assembly
