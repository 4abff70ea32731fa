import LittleMan.Proofs.Assembly.Lenient
import LittleMan.Proofs.Assembly.Strict
import LittleMan.Proofs.Statement.Form

/-!
# Programs without labels

A source whose statements have mnemonics and no labels is a program in lenient assembly
(`Bare.exists_lenient`). An operand that is a number can mean nothing else there
(`value_of_unnamed`), so data comes to the words that it is written as (`comesTo_data`).
-/

namespace LittleMan.Assembly

open Source Statement

/-- The statements of the source have these forms, each with a mnemonic and without a label. -/
structure Bare (source : Text) (forms : List Form) : Prop where
  forms_eq : (ofSource source).map form = forms
  plain : ∀ f ∈ forms, f.label = none ∧ f.verb.isKnown = true

variable {source text : Text} {forms : List Form} {statements : List Statement} {s : Statement}
  {k : Nat} {word again : Word}

theorem bare_written (readable : ∀ f ∈ forms, f.Readable)
    (plain : ∀ f ∈ forms, f.label = none ∧ f.verb.isKnown = true) :
    Bare (written (forms.map Form.words)) forms :=
  ⟨(forms_ofSource_written readable).1, plain⟩

namespace Bare

variable (bare : Bare source forms)

include bare

theorem length_eq : (ofSource source).length = forms.length := by
  rw [← bare.forms_eq, List.length_map]

theorem getElem?_forms (at_k : (ofSource source)[k]? = some s) : forms[k]? = some s.form := by
  rw [← bare.forms_eq, List.getElem?_map, at_k]
  rfl

theorem unnamed (k : Nat) (name : Text) : nameAt (ofSource source) k ≠ some name := by
  intro named
  obtain ⟨s, at_k, own⟩ := Option.bind_eq_some_iff.1 named
  have label := (bare.plain _ (List.mem_of_getElem? (bare.getElem?_forms at_k))).1
  cases own.symm.trans label

theorem known : ∀ s ∈ ofSource source, s.verb.isKnown = true := by
  intro s member
  obtain ⟨k, at_k⟩ := List.mem_iff_getElem?.1 member
  exact (bare.plain _ (List.mem_of_getElem? (bare.getElem?_forms at_k))).2

theorem exists_lenient (symbols : Bool) :
    ∃ object, (assemble { strict := false, symbols } source).result = .ok object := by
  cases assembled : (assemble { strict := false, symbols } source).result with
  | ok object => exact ⟨object, rfl⟩
  | error e =>
    obtain ⟨k, s, at_k, unknown, -⟩ := assemble_lenient_error_iff.1 assembled
    rw [bare.known s (List.mem_of_getElem? at_k)] at unknown
    cases unknown

/-- Where strict assembly has nothing against the program, it makes the same of it as lenient
assembly does. -/
theorem exists_assembled (options : Options)
    (acceptable : options.strict = true → Acceptable (ofSource source)) :
    ∃ object, (assemble options source).result = .ok object ∧
      (assemble { strict := false, symbols := options.symbols } source).result = .ok object := by
  obtain ⟨strict, symbols⟩ := options
  cases strict with
  | false =>
    obtain ⟨object, lenient⟩ := bare.exists_lenient symbols
    exact ⟨object, lenient, lenient⟩
  | true =>
    obtain ⟨object, assembled⟩ := exists_assemble_of_acceptable symbols (acceptable rfl)
    exact ⟨object, assembled, assemble_lenient assembled⟩

end Bare

/-! ## Operands and data -/

theorem value_of_unnamed (unnamed : ∀ k name, nameAt statements k ≠ some name)
    {operand : Option Lexeme} (said : operand.map Lexeme.text = some text)
    (read : Word.ofText? text = some word) {value : Int}
    (stands : StandsFor statements operand value) : value = word.toInt := by
  cases stands with
  | label named last => exact absurd named (unnamed _ _)
  | integer _ read' =>
    cases said
    rw [read] at read'
    cases read'
    rfl
  | unread _ unread =>
    cases said
    rw [read] at unread
    cases unread
  | missing => cases said

/-- Data that is written as a number comes to its word. -/
theorem comesTo_data (unnamed : ∀ k name, nameAt statements k ≠ some name)
    (said : s.form = ⟨none, .known .dat, some text⟩) (read : Word.ofText? text = some word)
    (comes : ComesTo statements s again) : again = word := by
  have verb : s.verb = .known .dat := congrArg Form.verb said
  cases comes with
  | inp known | out known | hlt known =>
    rw [verb] at known
    cases known
  | withOperand known counts stands =>
    rw [verb] at known
    cases known
    have same := value_of_unnamed unnamed (congrArg Form.operand said) read stands
    rw [same, show Mnemonic.dat.base = 0 from rfl, Int32.toInt_zero, Int.zero_add,
      Int32.ofInt_toInt]

theorem permitted_data (said : s.form = ⟨none, .known .dat, some text⟩)
    (read : Word.ofText? text = some word) (range : -999 ≤ word.toInt ∧ word.toInt ≤ 999) :
    Permitted statements s := by
  refine ⟨.dat, congrArg Form.verb said, fun takes => ?_, fun _ operand stands => ?_⟩
  · cases takes
  · have given : s.operand.map Lexeme.text = some text := congrArg Form.operand said
    have same : operand.text = text := by simpa [stands] using given
    exact .inr ⟨word, same ▸ read, range⟩

end LittleMan.Assembly
