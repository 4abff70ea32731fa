import LittleMan.Proofs.Assembly.Meaning
import LittleMan.Proofs.Statement.Form

/-!
# Programs that say the same

Of a statement, assembly looks at its label, at its instruction without regard to case, and at its
operand where the instruction uses one: its gist. Two programs whose statements have the same gists,
wherever these stand and whatever else is on their lines, are assembled to the same words, length
and addresses of labels, or are refused for the same problem (`agree_of_gists`).
-/

namespace LittleMan

/-- An operand counts for every instruction but input, output and halt. -/
def Mnemonic.usesOperand : Mnemonic → Bool
  | .inp | .out | .hlt => false
  | _ => true

theorem Mnemonic.usesOperand_iff {m : Mnemonic} :
    m.usesOperand = true ↔ m.takesAddress = true ∨ m = .dat := by
  cases m <;> simp [usesOperand, takesAddress]

namespace Verb

def usesOperand : Verb → Bool
  | known m => m.usesOperand
  | unknown _ => false

/-- The verb as messages name it: a word that is no mnemonic in upper case. -/
def canonical : Verb → Verb
  | known m => known m
  | unknown t => unknown (Text.upper t)

theorem isKnown_canonical (v : Verb) : v.canonical.isKnown = v.isKnown := by
  cases v <;> rfl

theorem usesOperand_canonical (v : Verb) : v.canonical.usesOperand = v.usesOperand := by
  cases v <;> rfl

theorem usesOperand_congr {v v' : Verb} (same : v.canonical = v'.canonical) :
    v.usesOperand = v'.usesOperand := by
  rw [← usesOperand_canonical, same, usesOperand_canonical]

theorem canonical_eq_known_iff {v : Verb} {m : Mnemonic} : v.canonical = known m ↔ v = known m := by
  cases v <;> simp [canonical]

theorem canonical_eq_unknown_iff {v : Verb} {name : Text} :
    v.canonical = unknown name ↔ ∃ t, v = unknown t ∧ Text.upper t = name := by
  cases v <;> simp [canonical]

end Verb

/-- What assembly looks at of a form. -/
def Form.gist (f : Form) : Form :=
  ⟨f.label, f.verb.canonical, if f.verb.usesOperand then f.operand else none⟩

namespace Assembly

open Statement

/-- The address of a label in an object file that keeps its symbols. -/
def ObjectFile.address? (o : ObjectFile) (label : Text) : Option Nat :=
  o.symbols.bind (·.address? label)

/-- Two results of assembly are the same program, or the same problem in places of their own. -/
inductive Agree : Except Error ObjectFile → Except Error ObjectFile → Prop
  | accepted {o o' : ObjectFile} (words : o.words = o'.words) (length : o.length = o'.length)
      (kept : o.symbols.isSome = o'.symbols.isSome)
      (labels : ∀ label, o.address? label = o'.address? label) : Agree (.ok o) (.ok o')
  | refused {e e' : Error} (problem : e.problem = e'.problem) : Agree (.error e) (.error e')

variable {α β : Type} {strict : Bool} {labels labels' : Labels} {s s' : Statement} {m : Mnemonic}

/-! ## Verdicts -/

/-- What comes out of a computation, without the notes and the places of an error. -/
def verdict (x : Noted Error α) : Except Problem α := x.result.mapError Error.problem

@[simp] theorem verdict_pure (a : α) : verdict (pure a : Noted Error α) = .ok a := rfl

@[simp] theorem verdict_fail (e : Error) :
    verdict (Noted.fail e : Noted Error α) = .error e.problem := rfl

@[simp] theorem verdict_tell (notes : List Note) :
    verdict (Noted.tell notes : Noted Error Unit) = .ok () := rfl

@[simp] theorem verdict_bind (x : Noted Error α) (f : α → Noted Error β) :
    verdict (x >>= f) = verdict x >>= fun a => verdict (f a) := by
  rw [verdict, Noted.result_bind, verdict]
  cases x.result <;> rfl

theorem verdict_mapM (f : α → Noted Error β) (xs : List α) :
    verdict (xs.mapM f) = xs.mapM fun x => verdict (f x) := by
  induction xs with
  | nil => rfl
  | cons x xs ih => simp only [List.mapM_cons, verdict_bind, verdict_pure, ih]; rfl

theorem verdict_ok_iff {x : Noted Error α} {a : α} : verdict x = .ok a ↔ x.result = .ok a := by
  rw [verdict]
  cases x.result <;> simp [Except.mapError]

theorem verdict_error_iff {x : Noted Error α} {p : Problem} :
    verdict x = .error p ↔ ∃ e, x.result = .error e ∧ e.problem = p := by
  rw [verdict]
  cases x.result <;> simp [Except.mapError]

/-! ## Operands that count -/

theorem encode_of_usesOperand (known : s.verb = .known m) (uses : m.usesOperand = true) :
    encode strict labels s = encodeWithOperand strict labels s m := by
  rw [encode, known]
  cases m <;> first | rfl | cases uses

theorem encode_of_plain (known : s.verb = .known m) (plain : m.usesOperand = false) :
    encode strict labels s = pure m.base := by
  rw [encode, known]
  cases m <;> first | rfl | cases plain

/-! ## Statements that come to the same -/

/-- Every label names the same address. -/
def Labels.Same (labels labels' : Labels) : Prop :=
  ∀ name, (labels.find? name).map Binding.address = (labels'.find? name).map Binding.address

/-- Two operands name the same address, or they are no labels and are the same text. -/
structure Labels.Match (labels labels' : Labels) (operand operand' : Text) : Prop where
  address : (labels.find? operand).map Binding.address =
    (labels'.find? operand').map Binding.address
  text : labels.find? operand = none → operand = operand'

/-- Two statements ask for the same instruction, with operands that match if it uses one. -/
structure Alike (labels labels' : Labels) (s s' : Statement) : Prop where
  verb : s.verb.canonical = s'.verb.canonical
  operand : s.verb.usesOperand = true → Option.Rel (labels.Match labels')
    (s.operand.map Lexeme.text) (s'.operand.map Lexeme.text)

theorem verdict_operandValue {operand operand' : Lexeme}
    (same : labels.Match labels' operand.text operand'.text) :
    verdict (operandValue strict labels operand) =
      verdict (operandValue strict labels' operand') := by
  obtain ⟨looked, texts⟩ := same
  rw [operandValue, operandValue]
  cases found : labels.find? operand.text with
  | some b =>
    cases found' : labels'.find? operand'.text with
    | none => simp [found, found'] at looked
    | some b' =>
      have address : b.address = b'.address := by simpa [found, found'] using looked
      simp [address]
  | none =>
    cases found' : labels'.find? operand'.text with
    | some b' => simp [found, found'] at looked
    | none =>
      rw [← texts found]
      cases Word.ofText? operand.text with
      | some value => rfl
      | none => cases strict <;> rfl

theorem verdict_encodeWithOperand (same : Option.Rel (labels.Match labels')
      (s.operand.map Lexeme.text) (s'.operand.map Lexeme.text)) :
    verdict (encodeWithOperand strict labels s m) =
      verdict (encodeWithOperand strict labels' s' m) := by
  rw [encodeWithOperand, encodeWithOperand]
  cases given : s.operand with
  | some operand =>
    cases given' : s'.operand with
    | none => simp [given, given'] at same
    | some operand' =>
      have values : verdict (operandValue strict labels operand) =
          verdict (operandValue strict labels' operand') :=
        verdict_operandValue (by simpa [given, given'] using same)
      simp only [verdict_bind, values, apply_ite verdict, verdict_fail, verdict_pure]
  | none =>
    cases given' : s'.operand with
    | some operand' => simp [given, given'] at same
    | none => simp only [verdict_bind, apply_ite verdict, verdict_fail, verdict_pure]

theorem verdict_encode (alike : Alike labels labels' s s') :
    verdict (encode strict labels s) = verdict (encode strict labels' s') := by
  obtain ⟨verbs, operands⟩ := alike
  rw [encode, encode]
  cases verb : s.verb with
  | unknown name =>
    rw [verb] at verbs
    obtain ⟨name', verb', upper⟩ := Verb.canonical_eq_unknown_iff.1 verbs.symm
    rw [verb', verdict_fail, verdict_fail, upper]
  | known m =>
    rw [verb] at verbs operands
    rw [Verb.canonical_eq_known_iff.1 verbs.symm]
    cases m with
    | inp | out | hlt => rfl
    | _ => exact verdict_encodeWithOperand (operands rfl)

theorem verdict_encodeAt (alike : Alike labels labels' s s') (address : Nat) :
    verdict (encodeAt strict labels s address) = verdict (encodeAt strict labels' s' address) := by
  simp only [encodeAt, verdict_bind, apply_ite verdict, verdict_encode alike, verdict_fail,
    verdict_pure, verdict_tell]

/-! ## Programs -/

section Programs

variable {statements statements' : List Statement} {options : Options} {source : Text}
  {name : Text} {e : Error}

/-- The words of the statements, or the problem of the first that is refused. -/
def encodings (strict : Bool) (labels : Labels) (statements : List Statement) :
    Except Problem (List Word) :=
  statements.zipIdx.mapM fun (s, address) => verdict (encodeAt strict labels s address)

/-- Statements that are alike, one by one, come to the same words. -/
theorem encodings_congr (alike : List.Forall₂ (Alike labels labels') statements statements') :
    encodings strict labels statements = encodings strict labels' statements' := by
  rw [encodings, encodings]
  generalize 0 = first
  induction alike generalizing first with
  | nil => rfl
  | cons head _ ih =>
    simp only [List.zipIdx_cons, List.mapM_cons, ih, verdict_encodeAt head]

theorem problem_of_afterStatement {address : Nat}
    (failed : (labels.afterStatement strict address s).result = .error e) :
    e.problem = .duplicateLabel := by
  obtain ⟨-, l, b, -, -, rfl⟩ := Labels.afterStatement_error_iff.1 failed
  rfl

/-- A symbol table is refused for a label that is defined twice, and for nothing else. -/
theorem problem_of_symbolTable {kept : Option Text}
    (failed : (SymbolTable.ofStatements strict kept statements).result = .error e) :
    e.problem = .duplicateLabel := by
  rw [SymbolTable.ofStatements, Noted.result_bind, Noted.bind_error_iff] at failed
  rcases failed with failed | ⟨labels, -, none⟩
  · rw [Labels.ofStatements, Noted.result_foldlM] at failed
    obtain ⟨labels, ⟨s, address⟩, -, failed⟩ := Noted.exists_of_foldlM_error failed
    exact problem_of_afterStatement failed
  · cases none

/-- The object file of a source whose statements come to these words. -/
def objectOf (options : Options) (source : Text) (words : List Word) : ObjectFile :=
  ⟨Memory.ofWords words, min words.length memorySize,
    if options.symbols then some (symbolTable (some source) (ofSource source)) else none⟩

/-- Assembly succeeds or fails as its statements do, once the labels are found. -/
theorem verdict_assemble
    (distinct : options.strict = true → ((ofSource source).filterMap name?).Nodup) :
    verdict (assemble options source) =
      objectOf options source <$>
        encodings options.strict (Labels.ofProgram (ofSource source)) (ofSource source) := by
  have tabled : verdict (SymbolTable.ofStatements options.strict
      (if options.symbols then some source else none) (ofSource source)) = .ok _ :=
    verdict_ok_iff.2 (symbolTable_ok_iff.2 ⟨distinct, rfl⟩)
  simp only [assemble, ObjectFile.ofStatements, verdict_bind, verdict_tell, Noted.ok_bind, tabled,
    verdict_mapM, apply_ite verdict, verdict_pure, ite_self]
  have kept : (if options.symbols then some (symbolTable (if options.symbols then some source
      else none) (ofSource source)) else none) =
      if options.symbols then some (symbolTable (some source) (ofSource source)) else none := by
    cases options.symbols <;> rfl
  rw [kept]
  exact bind_pure_comp (objectOf options source) _

/-- Assembly is refused for a label defined twice before it looks at any instruction. -/
theorem verdict_assemble_of_not_distinct
    (again : ¬(options.strict = true → ((ofSource source).filterMap name?).Nodup)) :
    verdict (assemble options source) = .error .duplicateLabel := by
  have refused : ∃ e, (SymbolTable.ofStatements options.strict
      (if options.symbols then some source else none) (ofSource source)).result = .error e := by
    cases tabled : (SymbolTable.ofStatements options.strict
        (if options.symbols then some source else none) (ofSource source)).result with
    | ok table => exact absurd (symbolTable_ok_iff.1 tabled).1 again
    | error e => exact ⟨e, rfl⟩
  obtain ⟨e, failed⟩ := refused
  refine verdict_error_iff.2 ⟨e, ?_, problem_of_symbolTable failed⟩
  rw [result_assemble, failed]
  rfl

end Programs

/-! ## Programs of the same gists -/

section Gists

variable {statements statements' : List Statement}

theorem map_name?_of_gists
    (gists : (statements.map form).map Form.gist = (statements'.map form).map Form.gist) :
    statements.map name? = statements'.map name? := by
  have labels := congrArg (List.map Form.label) gists
  rw [List.map_map, List.map_map, List.map_map, List.map_map] at labels
  exact labels

theorem same_of_gists
    (gists : (statements.map form).map Form.gist = (statements'.map form).map Form.gist) :
    (Labels.ofProgram statements).Same (Labels.ofProgram statements') := by
  intro name
  refine Option.ext fun k => ?_
  simp only [Labels.address_find?_ofProgram_iff, nameAt_eq_join, map_name?_of_gists gists]

theorem Labels.Same.match (same : labels.Same labels') (operand : Option Text) :
    Option.Rel (labels.Match labels') operand operand := by
  cases operand with
  | none => exact .none
  | some operand => exact .some ⟨same operand, fun _ => rfl⟩

theorem alike_of_gist (same : labels.Same labels') (gist : s.form.gist = s'.form.gist) :
    Alike labels labels' s s' := by
  have verbs : s.verb.canonical = s'.verb.canonical := congrArg Form.verb gist
  refine ⟨verbs, fun uses => ?_⟩
  have uses' : s'.verb.usesOperand = true := Verb.usesOperand_congr verbs ▸ uses
  have operands : s.operand.map Lexeme.text = s'.operand.map Lexeme.text := by
    simpa [Form.gist, form, uses, uses'] using congrArg Form.operand gist
  rw [operands]
  exact same.match _

theorem alike_of_gists
    (gists : (statements.map form).map Form.gist = (statements'.map form).map Form.gist) :
    List.Forall₂ (Alike (Labels.ofProgram statements) (Labels.ofProgram statements')) statements
      statements' := by
  have same := same_of_gists gists
  rw [List.map_map, List.map_map, ← List.forall₂_eq_eq_eq, List.forall₂_map_left_iff,
    List.forall₂_map_right_iff] at gists
  exact gists.imp fun s s' gist => alike_of_gist same gist

end Gists

/-- Sources whose statements have the same gists are assembled alike. -/
theorem agree_of_gists {source source' : Text} (options : Options)
    (gists : ((ofSource source).map form).map Form.gist =
      ((ofSource source').map form).map Form.gist) :
    Agree (assemble options source).result (assemble options source').result := by
  have names : (ofSource source).filterMap name? = (ofSource source').filterMap name? := by
    rw [filterMap_name?_eq, filterMap_name?_eq, map_name?_of_gists gists]
  by_cases distinct : options.strict = true → ((ofSource source).filterMap name?).Nodup
  · have assembled := verdict_assemble distinct
    have assembled' := verdict_assemble (names ▸ distinct)
    rw [← encodings_congr (alike_of_gists gists)] at assembled'
    cases encoded : encodings options.strict (Labels.ofProgram (ofSource source))
        (ofSource source) with
    | ok words =>
      rw [encoded] at assembled assembled'
      rw [verdict_ok_iff.1 assembled, verdict_ok_iff.1 assembled']
      refine .accepted rfl rfl ?_ fun label => ?_
      · simp [objectOf, apply_ite]
      · rw [ObjectFile.address?, ObjectFile.address?, objectOf, objectOf]
        cases options.symbols with
        | false => rfl
        | true => exact same_of_gists gists label
    | error problem =>
      rw [encoded] at assembled assembled'
      obtain ⟨e, failed, rfl⟩ := verdict_error_iff.1 assembled
      obtain ⟨e', failed', same⟩ := verdict_error_iff.1 assembled'
      rw [failed, failed']
      exact .refused same.symm
  · obtain ⟨e, failed, problem⟩ := verdict_error_iff.1 (verdict_assemble_of_not_distinct distinct)
    obtain ⟨e', failed', problem'⟩ :=
      verdict_error_iff.1 (verdict_assemble_of_not_distinct (names ▸ distinct))
    rw [failed, failed']
    exact .refused (problem.trans problem'.symm)

/-- Sources whose statements have the same forms are assembled alike. -/
theorem agree_of_forms {source source' : Text} (options : Options)
    (forms : (ofSource source).map form = (ofSource source').map form) :
    Agree (assemble options source).result (assemble options source').result :=
  agree_of_gists options (congrArg (List.map Form.gist) forms)

end Assembly
end LittleMan
