import LittleMan.Proofs.Assembly.Encoding
import LittleMan.Proofs.Machine.Step

/-!
# A strictly assembled program runs as written

The word of a statement means the instruction that the statement asks for, and a machine that
fetches the word executes that instruction (`runs_as_written`).
-/

namespace LittleMan.Assembly

open Statement

/-- The address that an operand refers to: that of the one statement that it labels, or else the
number that it is. -/
def RefersTo (statements : List Statement) (operand : Text) (address : Nat) : Prop :=
  (nameAt statements address = some operand ∧
    ∀ k, nameAt statements k = some operand → k = address) ∨
  ((∀ k, nameAt statements k ≠ some operand) ∧
    ∃ value, Word.ofText? operand = some value ∧ value.toInt = address)

/-- The instruction that a statement asks for: it has the statement's mnemonic, and its address, if
it has one, is that of the operand. -/
def AsksFor (statements : List Statement) (s : Statement) (i : Instruction) : Prop :=
  s.verb = .known i.mnemonic ∧
    ∀ a, i.address? = some a →
      ∃ operand, s.operand = some operand ∧ RefersTo statements operand.text a.val

variable {statements : List Statement} {s : Statement} {m : Mnemonic} {word : Word}

theorem toInt_wordOfAddress (address : Nat) :
    (wordOfAddress address).toInt = min (address : Int) 2147483647 := by
  have low : (-2 ^ 31 : Int) ≤ min (address : Int) 2147483647 := by omega
  have high : min (address : Int) 2147483647 < 2 ^ 31 := by omega
  rw [wordOfAddress, Int32.toInt_ofInt_of_le low high]

/-- The symbol table of a program. -/
def symbolTable (source : Option Text) (statements : List Statement) : SymbolTable where
  labels := Labels.ofProgram statements
  data := statements.map fun s => s.verb == .known .dat
  sourceMap := source.map fun text =>
    ⟨text, statements.map fun s => Source.lineAt (Source.lineStarts text) s.span.start⟩

/-- Strict assembly makes the same symbol table, of programs whose labels all differ. -/
theorem symbolTable_ok_iff {strict : Bool} {source : Option Text} {table : SymbolTable} :
    (SymbolTable.ofStatements strict source statements).result = .ok table ↔
      (strict = true → (statements.filterMap name?).Nodup) ∧
        table = symbolTable source statements := by
  rw [SymbolTable.ofStatements, Noted.result_bind, Noted.bind_ok_iff]
  constructor
  · rintro ⟨labels, found, same⟩
    obtain ⟨distinct, rfl⟩ := Labels.ofStatements_ok_iff.1 found
    cases same
    exact ⟨distinct, rfl⟩
  · rintro ⟨distinct, rfl⟩
    exact ⟨_, Labels.ofStatements_ok_iff.2 ⟨distinct, rfl⟩, rfl⟩

theorem labels_of_symbolTable {strict : Bool} {source : Option Text} {table : SymbolTable}
    (found : (SymbolTable.ofStatements strict source statements).result = .ok table) :
    (strict = true → (statements.filterMap name?).Nodup) ∧
      table.labels = Labels.ofProgram statements := by
  obtain ⟨distinct, rfl⟩ := symbolTable_ok_iff.1 found
  exact ⟨distinct, rfl⟩

section Objects

variable {options : Options} {source : Text} {object : ObjectFile}

/-- What an object file holds besides the words of its statements. -/
theorem object_of_assemble (accepted : (assemble options source).result = .ok object) :
    object.length = min (ofSource source).length memorySize ∧
      (∀ (k : Nat) (inside : k < memorySize), object.length ≤ k → object.words[k] = 0) ∧
      object.symbols =
        if options.symbols then some (symbolTable (some source) (ofSource source)) else none := by
  obtain ⟨table, tabled, built⟩ := assemble_ok_iff.1 accepted
  obtain ⟨-, rfl⟩ := symbolTable_ok_iff.1 tabled
  obtain ⟨words, length, -, rfl⟩ := ofStatements_ok_iff.1 built
  refine ⟨by rw [length], fun k inside beyond => ?_, ?_⟩
  · have past : words.length ≤ k := by
      have beyond : min words.length memorySize ≤ k := beyond
      omega
    simp [Memory.getElem_ofWords, List.getD_eq_getElem?_getD, past]
  · cases options.symbols <;> rfl

/-- A cell holds the word of its statement. -/
theorem encode_of_assemble (accepted : (assemble options source).result = .ok object) {k : Nat}
    (at_k : (ofSource source)[k]? = some s) (inside : k < memorySize) :
    (encode options.strict (Labels.ofProgram (ofSource source)) s).result = .ok object.words[k] := by
  obtain ⟨table, tabled, built⟩ := assemble_ok_iff.1 accepted
  obtain ⟨-, labels⟩ := labels_of_symbolTable tabled
  obtain ⟨words, -, each, rfl⟩ := ofStatements_ok_iff.1 built
  obtain ⟨word, at_word, encoded⟩ := each k s at_k
  have cell : (Memory.ofWords words)[k] = word := by
    rw [Memory.getElem_ofWords, List.getD_eq_getElem?_getD, at_word, Option.getD_some]
  rw [labels] at encoded
  rw [cell]
  exact (encodeAt_ok_iff.1 encoded).2

/-- No statement of a program that is accepted has an unknown instruction. -/
theorem known_of_assemble (accepted : (assemble options source).result = .ok object) :
    ∀ s ∈ ofSource source, s.verb.isKnown = true := by
  intro s member
  obtain ⟨table, -, built⟩ := assemble_ok_iff.1 accepted
  obtain ⟨k, at_k⟩ := List.mem_iff_getElem?.1 member
  obtain ⟨word, encoded⟩ := exists_object_iff.1 ⟨object, built⟩ k s at_k
  obtain ⟨m, known, -⟩ := encode_ok_iff.1 (encodeAt_ok_iff.1 encoded).2
  rw [known]
  rfl

end Objects

/-- The value of an operand in strict assembly, when it is allowed as an address. -/
theorem refersTo_of_operandValue (distinct : (statements.filterMap name?).Nodup) {operand : Lexeme}
    {value : Word} (takes : m.takesAddress = true)
    (valued : (operandValue true (Labels.ofProgram statements) operand).result = .ok value)
    (fits : allowed m value = true) :
    ∃ a : Address, value = Int32.ofNat a.val ∧ RefersTo statements operand.text a.val := by
  have range : 0 ≤ value.toInt ∧ value.toInt < 100 := by simpa [allowed, takes] using fits
  obtain ⟨a, small, toInt⟩ : ∃ a, a < 100 ∧ value.toInt = (a : Nat) :=
    ⟨value.toInt.toNat, by omega, by omega⟩
  have bits : a < 2 ^ 31 := by omega
  refine ⟨⟨a, small⟩, ?_, ?_⟩
  · rw [← Int32.toInt_inj, Int32.toInt_ofNat_of_lt bits, toInt]
  · rw [operandValue_ok_iff] at valued
    split at valued
    next b found =>
      rw [valued, toInt_wordOfAddress] at toInt
      obtain ⟨named, -⟩ := Labels.last_of_find?_ofProgram found
      rw [show b.address = a by omega] at named
      exact .inl ⟨named, fun k again => nameAt_injective distinct again named⟩
    next value' absent read =>
      have unnamed := Labels.find?_ofProgram_eq_none_iff.1 absent
      exact .inr ⟨unnamed, value', read, valued ▸ toInt⟩
    next => exact absurd valued.1 (by decide)

/-- There is an instruction for each mnemonic that takes an address and each address. -/
theorem exists_instruction (takes : m.takesAddress = true) (a : Address) :
    ∃ i : Instruction, i.mnemonic = m ∧ i.address? = some a := by
  cases m with
  | add => exact ⟨.add a, rfl, rfl⟩
  | sub => exact ⟨.sub a, rfl, rfl⟩
  | sta => exact ⟨.sta a, rfl, rfl⟩
  | lda => exact ⟨.lda a, rfl, rfl⟩
  | bra => exact ⟨.bra a, rfl, rfl⟩
  | brz => exact ⟨.brz a, rfl, rfl⟩
  | brp => exact ⟨.brp a, rfl, rfl⟩
  | inp | out | hlt | dat => cases takes

/-- The word of a statement in strict assembly means the instruction that the statement asks for. -/
theorem decode_encode_statement (distinct : (statements.filterMap name?).Nodup)
    (code : s.verb ≠ .known .dat)
    (encoded : (encode true (Labels.ofProgram statements) s).result = .ok word) :
    ∃ i, AsksFor statements s i ∧ Instruction.decode word = some i := by
  obtain ⟨m, known, encoded⟩ := encode_ok_iff.1 encoded
  split at encoded
  next plain =>
    subst encoded
    rcases plain with rfl | rfl | rfl
    · exact ⟨.inp, ⟨known, by simp [Instruction.address?]⟩, by decide⟩
    · exact ⟨.out, ⟨known, by simp [Instruction.address?]⟩, by decide⟩
    · exact ⟨.hlt, ⟨known, by simp [Instruction.address?]⟩, by decide⟩
  next others =>
    have takes : m.takesAddress = true := by
      cases m <;> simp_all [Mnemonic.takesAddress]
    obtain ⟨value, operandIs, fits, rfl⟩ := encodeWithOperand_ok_iff.1 encoded
    cases given : s.operand with
    | none =>
      rw [given] at operandIs
      simp [OperandIs, takes] at operandIs
    | some operand =>
      rw [given] at operandIs
      obtain ⟨a, rfl, refers⟩ := refersTo_of_operandValue distinct takes operandIs (fits rfl)
      obtain ⟨i, rfl, address⟩ := exists_instruction takes a
      refine ⟨i, ⟨known, ?_⟩, ?_⟩
      · intro a' same
        rw [address] at same
        cases same
        exact ⟨operand, given, refers⟩
      · have encode_eq : i.encode = i.mnemonic.base + Int32.ofNat a.val := by
          simp [Instruction.encode, address]
        rw [← encode_eq]
        exact Instruction.decode_encode i

/-- In a program that strict assembly accepts, each statement that is not data lies in memory, its
word means the instruction that the statement asks for, and a machine that fetches the statement's
cell while it still holds that word executes that instruction, however it is simulated. -/
theorem runs_as_written {symbols : Bool} {source : Text} {object : ObjectFile}
    (accepted : (assemble { strict := true, symbols } source).result = .ok object)
    {k : Nat} (at_k : (Statement.ofSource source)[k]? = some s) (code : s.verb ≠ .known .dat) :
    ∃ (inside : k < memorySize) (i : Instruction), AsksFor (Statement.ofSource source) s i ∧
      Instruction.decode object.words[k] = some i ∧
      ∀ (machine : Machine) (flags : Flags), machine.memory[k] = object.words[k] →
        (machine.status = .fetching → machine.pc.toNat = k →
          ∃ e next, machine.step flags = .ok (e, next) ∧ e.fetched = some k ∧
            e.instruction = some i) ∧
        (∀ e next, machine.step flags = .ok (e, next) → e.fetched = some k →
          e.instruction = some i) ∧
        (machine.pc.toNat = k → ∀ word, machine.step flags ≠ .error (.illegalWord word)) := by
  obtain ⟨table, tabled, built⟩ := assemble_ok_iff.1 accepted
  obtain ⟨distinct, labels⟩ := labels_of_symbolTable tabled
  obtain ⟨words, -, each, rfl⟩ := ofStatements_ok_iff.1 built
  obtain ⟨word, at_word, encoded⟩ := each k s at_k
  obtain ⟨inside, encoded⟩ := encodeAt_ok_iff.1 encoded
  rw [labels] at encoded
  obtain ⟨i, asks, known⟩ := decode_encode_statement (distinct rfl) code encoded
  have in_memory : k < memorySize := inside rfl
  have cell : (Memory.ofWords words)[k] = word := by
    rw [Memory.getElem_ofWords, List.getD_eq_getElem?_getD, at_word, Option.getD_some]
  refine ⟨in_memory, i, asks, by rw [cell]; exact known, ?_⟩
  intro machine flags intact
  rw [cell] at intact
  have found : machine.pc.toNat = k → machine.word? = some word := by
    rintro rfl
    exact Machine.word?_eq_some.2 ⟨inside rfl, intact⟩
  refine ⟨?_, ?_, ?_⟩
  · rintro fetching atCell
    obtain ⟨e, next, taken, fetched, executed⟩ :=
      Machine.exists_step flags fetching (found atCell) known
    exact ⟨e, next, taken, by rw [fetched, atCell], executed⟩
  · intro e next taken fetched
    obtain ⟨-, atCell, other, same, executed⟩ := (Machine.step_ok_iff.1 taken).fetched fetched
    rw [found atCell] at same
    cases same
    rw [executed, known]
  · intro atCell other refused
    rcases Machine.step_error_iff.1 refused with ⟨-, no⟩ | ⟨-, -, word', same, unknown, -⟩
    · cases no
    · rw [found atCell] at same
      cases same
      rw [known] at unknown
      cases unknown

/-- A program that puts out its inputs until one is 0. -/
def echoSource : Text := "LOOP INP\n BRZ END\n OUT\n BRA LOOP\nEND HLT".toList

theorem runs_as_written_echo :
    ∃ object s, (assemble { strict := true } echoSource).result = .ok object ∧
      (Statement.ofSource echoSource)[1]? = some s ∧ s.verb ≠ .known .dat ∧
      ∃ i, AsksFor (Statement.ofSource echoSource) s i ∧
        Instruction.decode object.words[1] = some i := by
  have ok : (assemble { strict := true } echoSource).result.isOk = true := by decide +kernel
  obtain ⟨object, accepted⟩ :
      ∃ object, (assemble { strict := true } echoSource).result = .ok object := by
    cases result : (assemble { strict := true } echoSource).result with
    | ok object => exact ⟨object, rfl⟩
    | error => rw [result] at ok; cases ok
  have at_1 : (Statement.ofSource echoSource)[1]? =
      some ⟨none, ⟨"BRZ".toList, 10⟩, some ⟨"END".toList, 14⟩, []⟩ := by decide +kernel
  have code : Verb.ofText "BRZ".toList ≠ .known .dat := by decide +kernel
  obtain ⟨_, i, asks, known, _⟩ := runs_as_written accepted at_1 code
  exact ⟨object, _, accepted, at_1, code, i, asks, known⟩

end LittleMan.Assembly
