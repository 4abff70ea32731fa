import LittleMan.Proofs.Assembly.Agreement
import LittleMan.Proofs.Assembly.Lenient
import LittleMan.Proofs.Assembly.Strict
import Mathlib.Data.List.Induction

/-!
# What lenient assembly warns of

Lenient assembly lets pass what strict assembly refuses, and warns of it: of each statement that
defines a label again, then of each operand that counts and cannot be understood, and then of the
statements that were dropped. It warns of nothing else, and of nothing twice, and where it warns at
all strict assembly refuses the program (`warnings_exact`).
-/

namespace LittleMan

namespace Note

/-- The notes that warn. -/
def warnings (notes : List Note) : List Note := notes.filter fun note => note.level == .warn

@[simp] theorem warnings_nil : warnings [] = [] := rfl

@[simp] theorem warnings_append (notes more : List Note) :
    warnings (notes ++ more) = warnings notes ++ warnings more :=
  List.filter_append ..

theorem warnings_flatMap {α : Type} (f : α → List Note) (xs : List α) :
    warnings (xs.flatMap f) = xs.flatMap fun x => warnings (f x) :=
  List.filter_flatMap ..

theorem mem_warnings_iff {notes : List Note} {note : Note} :
    note ∈ warnings notes ↔ note ∈ notes ∧ note.level = .warn := by
  simp [warnings]

end Note

namespace Statement

/-- The last address before the given one whose statement has the label. -/
def lastBefore (statements : List Statement) (name : Text) : Nat → Option Nat
  | 0 => none
  | k + 1 => if nameAt statements k = some name then some k else lastBefore statements name k

variable {statements more : List Statement} {name : Text} {j k : Nat}

theorem lastBefore_eq_some_iff : lastBefore statements name k = some j ↔
    j < k ∧ nameAt statements j = some name ∧
      ∀ i, j < i → i < k → nameAt statements i ≠ some name := by
  induction k with
  | zero => simp [lastBefore]
  | succ k ih =>
    rw [lastBefore]
    by_cases named : nameAt statements k = some name
    · rw [if_pos named]
      constructor
      · intro same
        cases same
        exact ⟨Nat.lt_succ_self _, named, fun i after before => by omega⟩
      · rintro ⟨before, -, last⟩
        by_cases earlier : j < k
        · exact absurd named (last k earlier (Nat.lt_succ_self k))
        · rw [Nat.eq_of_lt_succ_of_not_lt before earlier]
    · rw [if_neg named, ih]
      constructor
      · rintro ⟨before, found, last⟩
        refine ⟨Nat.lt_succ_of_lt before, found, fun i after inside => ?_⟩
        by_cases atEnd : i = k
        · rw [atEnd]
          exact named
        · exact last i after (by omega)
      · rintro ⟨before, found, last⟩
        have other : j ≠ k := by
          rintro rfl
          exact named found
        exact ⟨by omega, found, fun i after inside => last i after (Nat.lt_succ_of_lt inside)⟩

theorem nameAt_append (inside : k < statements.length) :
    nameAt (statements ++ more) k = nameAt statements k := by
  rw [nameAt, nameAt, List.getElem?_append_left inside]

theorem lastBefore_append (inside : k ≤ statements.length) :
    lastBefore (statements ++ more) name k = lastBefore statements name k := by
  induction k with
  | zero => rfl
  | succ k ih =>
    rw [lastBefore, lastBefore, ih (Nat.le_of_succ_le inside), nameAt_append inside]

/-- A label of a program names the last address whose statement has it. -/
theorem lastBefore_length (statements : List Statement) (name : Text) :
    lastBefore statements name statements.length =
      ((Assembly.Labels.ofProgram statements).find? name).map Assembly.Binding.address := by
  refine Option.ext fun j => ?_
  rw [lastBefore_eq_some_iff, Assembly.Labels.address_find?_ofProgram_iff]
  constructor
  · rintro ⟨-, named, last⟩
    refine ⟨named, fun i after again => ?_⟩
    exact last i after (lt_length_of_nameAt again) again
  · rintro ⟨named, last⟩
    exact ⟨lt_length_of_nameAt named, named, fun i after _ => last i after⟩

end Statement

namespace Assembly

open Statement Note

/-! ## What there is to warn of -/

/-- The statement at an address defines a label again. The label was defined before, last at the
earlier address. -/
def redefinition? (statements : List Statement) (k : Nat) : Option Note :=
  (nameAt statements k).bind fun name =>
    (lastBefore statements name k).map fun earlier => .labelRedefined name earlier k

def redefinitions (statements : List Statement) : List Note :=
  (List.range statements.length).filterMap (redefinition? statements)

/-- The statement has an operand that counts and is neither a label of the program nor an integer. -/
def unresolved? (statements : List Statement) (s : Statement) : Option Note :=
  s.operand.bind fun operand =>
    if s.verb.usesOperand ∧ (∀ other ∈ statements, other.name? ≠ some operand.text) ∧
        Word.ofText? operand.text = none then
      some (.operandUnresolved operand.text)
    else none

def unresolved (statements : List Statement) : List Note :=
  statements.filterMap (unresolved? statements)

/-- The statements that do not fit in memory. -/
def dropped (statements : List Statement) : List Note :=
  if 100 < statements.length then [.statementsDropped (statements.length - 100)] else []

variable {statements : List Statement} {s : Statement} {labels : Labels} {k : Nat}

/-! ## Labels -/

theorem redefinition?_append (more : List Statement) (inside : k < statements.length) :
    redefinition? (statements ++ more) k = redefinition? statements k := by
  rw [redefinition?, redefinition?, nameAt_append inside]
  congr 1
  funext name
  rw [lastBefore_append (Nat.le_of_lt inside)]

theorem redefinitions_append (statements : List Statement) (s : Statement) :
    redefinitions (statements ++ [s]) =
      redefinitions statements ++ (redefinition? (statements ++ [s]) statements.length).toList := by
  have same : ∀ k ∈ List.range statements.length,
      redefinition? (statements ++ [s]) k = redefinition? statements k := by
    intro k member
    exact redefinition?_append [s] (List.mem_range.1 member)
  rw [redefinitions, List.length_append, List.length_singleton, List.range_succ,
    List.filterMap_append, List.filterMap_congr same, redefinitions]
  cases last : redefinition? (statements ++ [s]) statements.length <;> simp [last]

theorem warnings_afterStatement (statements : List Statement) (s : Statement) :
    warnings ((Labels.ofProgram statements).afterStatement false statements.length s).notes =
      (redefinition? (statements ++ [s]) statements.length).toList := by
  have named : nameAt (statements ++ [s]) statements.length = s.name? := by
    simp [nameAt]
  rw [redefinition?, named, Labels.afterStatement, name?]
  cases s.label with
  | none => rfl
  | some label =>
    have before : lastBefore (statements ++ [s]) label.text statements.length = _ :=
      lastBefore_append (Nat.le_refl _)
    rw [lastBefore_length] at before
    simp only [Option.map_some, Option.bind_some, before]
    cases (Labels.ofProgram statements).find? label.text <;> rfl

/-- The labels are found with a warning of each that was defined before. -/
theorem warnings_labels (statements : List Statement) :
    warnings (Labels.ofStatements false statements).notes = redefinitions statements := by
  induction statements using List.reverseRecOn with
  | nil => rfl
  | append_singleton statements s ih =>
    have found : (Labels.ofStatements false statements).result = .ok (.ofProgram statements) :=
      Labels.ofStatements_ok_iff.2 ⟨by simp, rfl⟩
    rw [Labels.ofStatements_append, Noted.notes_bind_of_ok found, warnings_append, ih,
      warnings_afterStatement, redefinitions_append]

/-! ## Operands -/

theorem warnings_operandValue (labels : Labels) (operand : Lexeme) :
    warnings (operandValue false labels operand).notes =
      if labels.find? operand.text = none ∧ Word.ofText? operand.text = none then
        [.operandUnresolved operand.text]
      else [] := by
  rw [operandValue]
  cases labels.find? operand.text with
  | some b => rfl
  | none =>
    cases Word.ofText? operand.text <;> rfl

/-- Whatever is made of the value of an operand, only the operand is warned of. -/
theorem warnings_encodeWithOperand (labels : Labels) (s : Statement) (m : Mnemonic) :
    warnings (encodeWithOperand false labels s m).notes =
      match s.operand with
      | some operand => warnings (operandValue false labels operand).notes
      | none => [] := by
  rw [encodeWithOperand]
  cases s.operand with
  | none => rfl
  | some operand =>
    obtain ⟨value, valued⟩ := exists_operandValue labels operand
    rw [Noted.notes_bind_of_ok valued]
    exact List.append_nil _ ▸ rfl

theorem warnings_encode (statements : List Statement) (s : Statement) :
    warnings (encode false (Labels.ofProgram statements) s).notes =
      (unresolved? statements s).toList := by
  rw [unresolved?]
  cases verb : s.verb with
  | unknown name =>
    rw [encode, verb]
    cases s.operand <;> simp [Verb.usesOperand]
  | known m =>
    cases uses : m.usesOperand with
    | false =>
      rw [encode_of_plain verb uses]
      cases s.operand <;> simp [Verb.usesOperand, uses]
    | true =>
      rw [encode_of_usesOperand verb uses, warnings_encodeWithOperand]
      cases s.operand with
      | none => rfl
      | some operand =>
        have unnamed : (Labels.ofProgram statements).find? operand.text = none ↔
            ∀ other ∈ statements, other.name? ≠ some operand.text := by
          rw [Labels.find?_ofProgram_eq_none_iff, ← not_exists, ← mem_names_iff,
            List.mem_filterMap]
          simp only [not_exists, not_and, ne_eq]
        simp only [warnings_operandValue, unnamed, Verb.usesOperand, uses, true_and,
          Option.bind_some]
        split <;> rfl

/-- A word that is assembled is nothing to warn of. -/
theorem warnings_encodeAt (labels : Labels) (s : Statement) (address : Nat) :
    warnings (encodeAt false labels s address).notes = warnings (encode false labels s).notes := by
  have inside : encodeAt false labels s address = encode false labels s >>= fun word => do
      if address < memorySize then Noted.tell [.wordAssembled address word s.text]
      return word := rfl
  rw [inside]
  cases encoded : (encode false labels s).result with
  | error e => rw [Noted.notes_bind, encoded, List.append_nil]
  | ok word =>
    rw [Noted.notes_bind_of_ok encoded, warnings_append]
    by_cases written : address < memorySize
    · rw [if_pos written]
      exact List.append_nil _
    · rw [if_neg written]
      exact List.append_nil _

/-! ## Programs -/

theorem flatMap_encodeAt (statements : List Statement) :
    (statements.zipIdx.flatMap fun (s, address) =>
      warnings (encodeAt false (Labels.ofProgram statements) s address).notes) =
        unresolved statements := by
  have each : ∀ x : Statement × Nat,
      warnings (encodeAt false (Labels.ofProgram statements) x.1 x.2).notes =
        (unresolved? statements x.1).toList := by
    intro x
    rw [warnings_encodeAt, warnings_encode]
  calc
    _ = statements.zipIdx.flatMap fun x => (unresolved? statements x.1).toList := by
      simp only [each]
    _ = (statements.zipIdx.map Prod.fst).flatMap fun s => (unresolved? statements s).toList := by
      rw [List.flatMap_map]
    _ = unresolved statements := by
      rw [List.zipIdx_map_fst, unresolved, List.filterMap_eq_flatMap_toList]

theorem warnings_ofStatements {options : Options} {table : SymbolTable} {object : ObjectFile}
    (lenient : options.strict = false) (labels : table.labels = .ofProgram statements)
    (built : (ObjectFile.ofStatements options table statements).result = .ok object) :
    warnings (ObjectFile.ofStatements options table statements).notes =
      unresolved statements ++ dropped statements := by
  rw [ObjectFile.ofStatements, Noted.result_bind, Noted.bind_ok_iff] at built
  obtain ⟨words, coded, -⟩ := built
  have length : words.length = statements.length := by
    have lengths := coded
    rw [Noted.result_mapM, Noted.mapM_ok_iff, List.length_zipIdx] at lengths
    exact lengths.1
  rw [ObjectFile.ofStatements, Noted.notes_bind_of_ok coded, Noted.notes_mapM_of_ok coded,
    warnings_append, warnings_flatMap, lenient, labels, flatMap_encodeAt, length, dropped]
  congr 1
  by_cases beyond : 100 < statements.length
  · rw [if_pos beyond, if_pos beyond]
    rfl
  · rw [if_neg beyond, if_neg beyond]
    rfl

theorem warnings_readingNotes (statements : List Statement) :
    warnings (readingNotes statements) = [] := by
  rw [warnings, List.filter_eq_nil_iff]
  intro note member
  rcases List.mem_append.1 member with ignored | read
  · obtain ⟨s, -, rfl⟩ := List.mem_map.1 ignored
    exact Bool.false_ne_true
  · rw [List.mem_singleton.1 read]
    exact Bool.false_ne_true

theorem warnings_assemble {symbols : Bool} {source : Text} {object : ObjectFile}
    (accepted : (assemble { strict := false, symbols } source).result = .ok object) :
    warnings (assemble { strict := false, symbols } source).notes =
      redefinitions (ofSource source) ++ unresolved (ofSource source) ++
        dropped (ofSource source) := by
  obtain ⟨table, tabled, built⟩ := assemble_ok_iff.1 accepted
  obtain ⟨-, labels⟩ := labels_of_symbolTable tabled
  have tableNotes : warnings (SymbolTable.ofStatements false (if symbols then some source else none)
      (ofSource source)).notes = redefinitions (ofSource source) := by
    rw [SymbolTable.ofStatements, Noted.notes_bind_of_ok, warnings_append, warnings_labels]
    · exact List.append_nil _
    · exact Labels.ofStatements_ok_iff.2 ⟨by simp, rfl⟩
  rw [assemble, Noted.notes_bind_of_ok rfl, Noted.notes_tell, warnings_append,
    warnings_readingNotes, List.nil_append, Noted.notes_bind_of_ok tabled, warnings_append,
    tableNotes, warnings_ofStatements rfl labels built, List.append_assoc]

/-! ## Warnings and strict assembly -/

theorem redefinitions_of_acceptable (acceptable : Acceptable statements) :
    redefinitions statements = [] := by
  rw [redefinitions, List.filterMap_eq_nil_iff]
  intro k _
  rw [redefinition?, Option.bind_eq_none_iff]
  intro name named
  rw [Option.map_eq_none_iff, Option.eq_none_iff_forall_ne_some]
  intro j found
  obtain ⟨before, earlier, -⟩ := lastBefore_eq_some_iff.1 found
  have same := acceptable.distinct name j k earlier named
  omega

theorem unresolved_of_acceptable (acceptable : Acceptable statements) :
    unresolved statements = [] := by
  rw [unresolved, List.filterMap_eq_nil_iff]
  intro s member
  rw [unresolved?, Option.bind_eq_none_iff]
  intro operand given
  rw [if_neg]
  rintro ⟨uses, unnamed, unread⟩
  obtain ⟨m, known, address, data⟩ := acceptable.permitted s member
  have resolves : ∃ low high, Resolves statements low high operand.text := by
    rw [known, Verb.usesOperand, Mnemonic.usesOperand_iff] at uses
    rcases uses with takes | isData
    · obtain ⟨operand', same, resolves⟩ := address takes
      cases given.symm.trans same
      exact ⟨_, _, resolves⟩
    · exact ⟨_, _, data isData operand given⟩
  obtain ⟨low, high, named | ⟨value, read, -⟩⟩ := resolves
  · obtain ⟨other, member, same⟩ := List.mem_filterMap.1 (mem_names_iff.2 named)
    exact unnamed other member same
  · rw [unread] at read
    cases read

theorem dropped_of_acceptable (acceptable : Acceptable statements) : dropped statements = [] := by
  rw [dropped, if_neg (Nat.not_lt.2 acceptable.fits)]

theorem warnings_of_strict {symbols other : Bool} {source : Text} {object : ObjectFile}
    (accepted : (assemble { strict := true, symbols := other } source).result = .ok object) :
    warnings (assemble { strict := false, symbols } source).notes = [] := by
  have acceptable := acceptable_of_assemble accepted
  obtain ⟨object, accepted⟩ := exists_assemble_of_acceptable symbols acceptable
  rw [warnings_assemble (assemble_lenient accepted), redefinitions_of_acceptable acceptable,
    unresolved_of_acceptable acceptable, dropped_of_acceptable acceptable]
  rfl

/-- Lenient assembly that succeeds has warned once of each statement that defines a label again, then
once of each operand that cannot be understood, and then of what was dropped, and of nothing else.
Where lenient assembly warns, also before it fails, strict assembly refuses the program. -/
theorem warnings_exact (symbols : Bool) (source : Text) :
    let statements := ofSource source
    let lenient := assemble { strict := false, symbols } source
    ((∃ object, lenient.result = .ok object) → warnings lenient.notes =
      redefinitions statements ++ unresolved statements ++ dropped statements) ∧
    ((∃ note ∈ lenient.notes, note.level = .warn) →
      ∀ other, ∃ e, (assemble { strict := true, symbols := other } source).result = .error e) := by
  intro statements lenient
  constructor
  · rintro ⟨object, accepted⟩
    exact warnings_assemble accepted
  · rintro ⟨note, noted, warns⟩ other
    cases strict : (assemble { strict := true, symbols := other } source).result with
    | error e => exact ⟨e, rfl⟩
    | ok object =>
      have silent : warnings lenient.notes = [] := warnings_of_strict strict
      have member : note ∈ warnings lenient.notes := mem_warnings_iff.2 ⟨noted, warns⟩
      rw [silent] at member
      cases member

/-- A hundred and two statements. The first two define the same label, and most have an operand that
is no label. -/
def overfullSource : Text :=
  "A LDA B\nA BRA 7\n".toList ++ (List.replicate 100 "OUT B\n".toList).flatten

theorem warnings_exact_overfull :
    (∃ object, (assemble {} overfullSource).result = .ok object) ∧
    (∃ note ∈ (assemble {} overfullSource).notes, note.level = .warn) ∧
    warnings (assemble {} overfullSource).notes =
      [.labelRedefined ['A'] 0 1, .operandUnresolved ['B'], .statementsDropped 2] ∧
    ∃ e, (assemble { strict := true } overfullSource).result = .error e := by
  have accepted : ∃ object, (assemble {} overfullSource).result = .ok object := by
    cases assembled : (assemble {} overfullSource).result with
    | ok object => exact ⟨object, rfl⟩
    | error e =>
      obtain ⟨k, s, at_k, unknown, -⟩ := assemble_lenient_error_iff.1 assembled
      have known : ∀ s ∈ ofSource overfullSource, s.verb.isKnown = true := by decide +kernel
      rw [known s (List.mem_of_getElem? at_k)] at unknown
      cases unknown
  obtain ⟨exactly, refused⟩ := warnings_exact false overfullSource
  have listed : warnings (assemble {} overfullSource).notes =
      [.labelRedefined ['A'] 0 1, .operandUnresolved ['B'], .statementsDropped 2] :=
    (exactly accepted).trans (by decide +kernel)
  have warned : ∃ note ∈ (assemble {} overfullSource).notes, note.level = .warn := by
    refine ⟨.statementsDropped 2, mem_warnings_iff.1 ?_⟩
    rw [listed]
    simp
  exact ⟨accepted, warned, listed, refused warned false⟩

end Assembly
end LittleMan
