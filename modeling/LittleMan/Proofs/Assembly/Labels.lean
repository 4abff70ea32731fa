import LittleMan.Assembly.SymbolTable
import LittleMan.Proofs.Noted

/-!
# What the labels of a program name

The labels of a program are the bindings of its statements, where a later statement takes a label
over from an earlier one (`last_of_find?_ofProgram`). Strict assembly makes the same labels, of
exactly those programs whose labels all differ (`ofStatements_ok_iff`).
-/

namespace LittleMan

namespace Statement

/-- The text of a statement's label. -/
def name? (s : Statement) : Option Text := s.label.map Lexeme.text

/-- The label of the statement at an address. -/
def nameAt (statements : List Statement) (address : Nat) : Option Text :=
  statements[address]?.bind name?

/-- The binding that a statement makes at an address. -/
def binding? (s : Statement) (address : Nat) : Option Assembly.Binding :=
  s.label.map fun label => ⟨label.text, address, label.start⟩

@[simp] theorem nameAt_nil (address : Nat) : nameAt [] address = none := by simp [nameAt]

@[simp] theorem nameAt_cons_zero (s : Statement) (rest : List Statement) :
    nameAt (s :: rest) 0 = s.name? := by
  simp [nameAt]

@[simp] theorem nameAt_cons_succ (s : Statement) (rest : List Statement) (address : Nat) :
    nameAt (s :: rest) (address + 1) = nameAt rest address := by
  simp [nameAt]

theorem lt_length_of_nameAt {statements : List Statement} {name : Text} {k : Nat}
    (named : nameAt statements k = some name) :
    k < statements.length := by
  obtain ⟨s, at_k, -⟩ := Option.bind_eq_some_iff.1 named
  exact (List.getElem?_eq_some_iff.1 at_k).1

theorem mem_names_iff {statements : List Statement} {name : Text} :
    name ∈ statements.filterMap name? ↔ ∃ k, nameAt statements k = some name := by
  simp only [List.mem_filterMap, nameAt, Option.bind_eq_some_iff]
  constructor
  · rintro ⟨s, member, named⟩
    obtain ⟨k, found⟩ := List.mem_iff_getElem?.1 member
    exact ⟨k, s, found, named⟩
  · rintro ⟨k, s, found, named⟩
    exact ⟨s, List.mem_iff_getElem?.2 ⟨k, found⟩, named⟩

theorem nameAt_eq_join (statements : List Statement) (k : Nat) :
    nameAt statements k = (statements.map name?)[k]?.join := by
  rw [nameAt, List.getElem?_map]
  cases statements[k]? <;> rfl

theorem filterMap_name?_eq (statements : List Statement) :
    statements.filterMap name? = (statements.map name?).filterMap id := by
  rw [List.filterMap_map]
  rfl

/-- A label is defined last by some statement. -/
theorem exists_last {statements : List Statement} {name : Text} {k : Nat}
    (named : nameAt statements k = some name) :
    ∃ k, nameAt statements k = some name ∧ ∀ j, k < j → nameAt statements j ≠ some name := by
  induction statements generalizing k with
  | nil => simp at named
  | cons s rest ih =>
    by_cases again : ∃ j, nameAt rest j = some name
    · obtain ⟨j, again⟩ := again
      obtain ⟨k, found, last⟩ := ih again
      refine ⟨k + 1, by simpa using found, fun j later => ?_⟩
      obtain ⟨j, rfl⟩ := Nat.exists_eq_add_of_lt later
      simpa [Nat.add_right_comm] using last (k + j + 1) (by omega)
    · have first : s.name? = some name := by
        cases k with
        | zero => simpa using named
        | succ k => exact absurd ⟨k, by simpa using named⟩ again
      refine ⟨0, by simpa using first, fun j later => ?_⟩
      obtain ⟨j, rfl⟩ := Nat.exists_eq_add_of_lt later
      rw [Nat.zero_add, nameAt_cons_succ]
      exact fun found => again ⟨j, found⟩

/-- Where no label is defined twice, a label is that of one statement only. -/
theorem nameAt_injective {statements : List Statement}
    (distinct : (statements.filterMap name?).Nodup)
    {name : Text} {j k : Nat} (first : nameAt statements j = some name)
    (second : nameAt statements k = some name) : j = k := by
  induction statements generalizing j k with
  | nil => simp at first
  | cons s rest ih =>
    have restDistinct : (rest.filterMap name?).Nodup :=
      distinct.sublist ((List.sublist_cons_self s rest).filterMap name?)
    have fresh : ∀ i, s.name? = some name → nameAt rest i ≠ some name := by
      intro i named found
      rw [List.filterMap_cons_some named, List.nodup_cons] at distinct
      exact distinct.1 (mem_names_iff.2 ⟨i, found⟩)
    cases j with
    | zero =>
      cases k with
      | zero => rfl
      | succ k =>
        rw [nameAt_cons_zero] at first
        rw [nameAt_cons_succ] at second
        exact absurd second (fresh k first)
    | succ j =>
      cases k with
      | zero =>
        rw [nameAt_cons_succ] at first
        rw [nameAt_cons_zero] at second
        exact absurd first (fresh j second)
      | succ k =>
        rw [nameAt_cons_succ] at first second
        rw [ih restDistinct first second]

end Statement

namespace Assembly.Labels

open Statement

variable {labels final : Labels} {strict : Bool} {address : Nat} {s : Statement} {b : Binding}
variable {statements : List Statement} {name : Text}

/-- The labels with the binding that a statement makes at an address. -/
def bindAt (labels : Labels) (address : Nat) (s : Statement) : Labels :=
  match s.binding? address with
  | none => labels
  | some b => labels.define b

/-- The labels with the bindings that statements make, the first of which stands at an address. -/
def bindFrom (labels : Labels) (first : Nat) (statements : List Statement) : Labels :=
  (statements.zipIdx first).foldl (fun labels (s, address) => labels.bindAt address s) labels

/-- The labels of a program. -/
def ofProgram (statements : List Statement) : Labels := bindFrom [] 0 statements

theorem bindFrom_cons (first : Nat) (rest : List Statement) :
    bindFrom labels first (s :: rest) = (labels.bindAt first s).bindFrom (first + 1) rest := rfl

/-! ## Looking a label up -/

theorem find?_bindAt_of_name (named : s.name? = some name) :
    (labels.bindAt address s).find? name = s.binding? address := by
  cases label : s.label with
  | none => simp [name?, label] at named
  | some l =>
    have same : l.text = name := by simpa [name?, label] using named
    simp [bindAt, binding?, label, find?_define, same]

theorem find?_bindAt_of_ne (other : s.name? ≠ some name) :
    (labels.bindAt address s).find? name = labels.find? name := by
  cases label : s.label with
  | none => simp [bindAt, binding?, label]
  | some l =>
    have differs : l.text ≠ name := by simpa [name?, label] using other
    simp [bindAt, binding?, label, find?_define, differs]

theorem find?_bindAt_eq_none_iff :
    (labels.bindAt address s).find? name = none ↔
      s.name? ≠ some name ∧ labels.find? name = none := by
  by_cases named : s.name? = some name
  · rw [find?_bindAt_of_name named]
    cases label : s.label <;> simp_all [name?, binding?]
  · simp [find?_bindAt_of_ne named, named]

theorem find?_bindFrom_eq_none_iff (first : Nat) :
    (bindFrom labels first statements).find? name = none ↔
      labels.find? name = none ∧ ∀ k, nameAt statements k ≠ some name := by
  induction statements generalizing labels first with
  | nil => simp [bindFrom]
  | cons s rest ih =>
    rw [bindFrom_cons, ih]
    have split : (∀ k, nameAt (s :: rest) k ≠ some name) ↔
        s.name? ≠ some name ∧ ∀ k, nameAt rest k ≠ some name := by
      constructor
      · exact fun none => ⟨none 0, fun k => none (k + 1)⟩
      · rintro ⟨head, tail⟩ (_ | k)
        · exact head
        · exact tail k
    rw [split, find?_bindAt_eq_none_iff, ← and_assoc, and_comm (a := s.name? ≠ some name)]

/-- Statements without a label leave what it names. -/
theorem find?_bindFrom_of_absent (first : Nat) (absent : ∀ k, nameAt statements k ≠ some name) :
    (bindFrom labels first statements).find? name = labels.find? name := by
  induction statements generalizing labels first with
  | nil => rfl
  | cons s rest ih =>
    rw [bindFrom_cons, ih (first + 1) fun k => absent (k + 1)]
    exact find?_bindAt_of_ne (absent 0)

/-- A label names the last statement that has it. -/
theorem find?_bindFrom_of_last (first : Nat) {k : Nat} (at_k : statements[k]? = some s)
    (named : s.name? = some name) (last : ∀ j, k < j → nameAt statements j ≠ some name) :
    (bindFrom labels first statements).find? name = s.binding? (first + k) := by
  induction statements generalizing labels first k with
  | nil => simp at at_k
  | cons head rest ih =>
    rw [bindFrom_cons]
    cases k with
    | zero =>
      obtain rfl : head = s := by simpa using at_k
      have absent : ∀ j, nameAt rest j ≠ some name := fun j => last (j + 1) (Nat.succ_pos j)
      rw [find?_bindFrom_of_absent (first + 1) absent, find?_bindAt_of_name named, Nat.add_zero]
    | succ k =>
      rw [ih (first + 1) (by simpa using at_k) fun j later => last (j + 1) (Nat.succ_lt_succ later)]
      congr 1
      omega

theorem find?_ofProgram_eq_none_iff :
    (ofProgram statements).find? name = none ↔ ∀ k, nameAt statements k ≠ some name := by
  rw [ofProgram, find?_bindFrom_eq_none_iff]
  exact and_iff_right rfl

theorem find?_ofProgram_of_last {k : Nat} (at_k : statements[k]? = some s)
    (named : s.name? = some name) (last : ∀ j, k < j → nameAt statements j ≠ some name) :
    (ofProgram statements).find? name = s.binding? k := by
  rw [ofProgram, find?_bindFrom_of_last 0 at_k named last, Nat.zero_add]

/-- A label that names an address is that of the statement there, and of no later one. -/
theorem last_of_find?_ofProgram (found : (ofProgram statements).find? name = some b) :
    nameAt statements b.address = some name ∧
      ∀ j, b.address < j → nameAt statements j ≠ some name := by
  have bound : ∃ k, nameAt statements k = some name := by
    apply Classical.byContradiction
    intro none
    have absent := find?_ofProgram_eq_none_iff.2 fun k named => none ⟨k, named⟩
    rw [found] at absent
    cases absent
  obtain ⟨k, named⟩ := bound
  obtain ⟨k, named, last⟩ := exists_last named
  obtain ⟨s, at_k, own⟩ := Option.bind_eq_some_iff.1 named
  have binding := find?_ofProgram_of_last at_k own last
  rw [found] at binding
  obtain ⟨l, -, rfl⟩ := Option.map_eq_some_iff.1 binding.symm
  exact ⟨named, last⟩

theorem address_find?_ofProgram_iff {k : Nat} :
    ((ofProgram statements).find? name).map Binding.address = some k ↔
      nameAt statements k = some name ∧ ∀ j, k < j → nameAt statements j ≠ some name := by
  constructor
  · intro named
    obtain ⟨b, found, rfl⟩ := Option.map_eq_some_iff.1 named
    exact last_of_find?_ofProgram found
  · rintro ⟨named, last⟩
    obtain ⟨s, at_k, own⟩ := Option.bind_eq_some_iff.1 named
    obtain ⟨l, label, -⟩ := Option.map_eq_some_iff.1 own
    rw [find?_ofProgram_of_last at_k own last, binding?, label]
    rfl

/-! ## Strict assembly -/

theorem afterStatement_ok_iff :
    (labels.afterStatement strict address s).result = .ok final ↔
      (strict = true → ∀ name, s.name? = some name → labels.find? name = none) ∧
        final = labels.bindAt address s := by
  cases label : s.label with
  | none => simp [afterStatement, bindAt, binding?, name?, label, eq_comm]
  | some l =>
    simp only [afterStatement, bindAt, binding?, name?, label, Option.map_some]
    cases earlier : labels.find? l.text with
    | none => simp [eq_comm, earlier]
    | some b =>
      cases strict with
      | false => simp [eq_comm]
      | true => simp [earlier]

theorem afterStatement_error_iff {e : Error} :
    (labels.afterStatement strict address s).result = .error e ↔
      strict = true ∧ ∃ l b, s.label = some l ∧ labels.find? l.text = some b ∧
        e = ⟨.duplicateLabel, .two b.span l.span⟩ := by
  cases label : s.label with
  | none => simp [afterStatement, label]
  | some l =>
    simp only [afterStatement, label]
    cases earlier : labels.find? l.text with
    | none => simp [earlier]
    | some b =>
      cases strict with
      | false => simp
      | true => simp [earlier, eq_comm]

/-- A statement and those after it define fresh labels when its own is fresh and theirs are, and
differ from it. -/
theorem fresh_cons_iff {rest : List Statement} :
    ((∀ name, s.name? = some name → labels.find? name = none) ∧
      (rest.filterMap name?).Nodup ∧
      ∀ name ∈ rest.filterMap name?, s.name? ≠ some name ∧ labels.find? name = none) ↔
    ((s :: rest).filterMap name?).Nodup ∧
      ∀ name ∈ (s :: rest).filterMap name?, labels.find? name = none := by
  cases named : s.name? with
  | none => simp [List.filterMap_cons_none named]
  | some own =>
    rw [List.filterMap_cons_some named, List.nodup_cons]
    constructor
    · rintro ⟨ownFresh, distinct, fresh⟩
      refine ⟨⟨fun member => (fresh own member).1 rfl, distinct⟩, fun name member => ?_⟩
      rcases List.mem_cons.1 member with rfl | member
      · exact ownFresh name rfl
      · exact (fresh name member).2
    · rintro ⟨⟨unseen, distinct⟩, fresh⟩
      refine ⟨?_, distinct, fun name member => ⟨?_, fresh name (List.mem_cons_of_mem own member)⟩⟩
      · rintro name same
        cases same
        exact fresh own List.mem_cons_self
      · intro same
        cases same
        exact unseen member

theorem foldlM_afterStatement_ok_iff (first : Nat) :
    ((statements.zipIdx first).foldlM (fun labels (s, address) =>
      (labels.afterStatement strict address s).result) labels) = .ok final ↔
      (strict = true → (statements.filterMap name?).Nodup ∧
        ∀ name ∈ statements.filterMap name?, labels.find? name = none) ∧
        final = labels.bindFrom first statements := by
  induction statements generalizing labels first with
  | nil => simp [bindFrom, pure, Except.pure, eq_comm]
  | cons s rest ih =>
    rw [List.zipIdx_cons, List.foldlM_cons, Noted.bind_ok_iff, bindFrom_cons]
    simp only [afterStatement_ok_iff]
    constructor
    · rintro ⟨next, ⟨ownFresh, rfl⟩, more⟩
      obtain ⟨fresh, rfl⟩ := (ih (first + 1)).1 more
      simp only [find?_bindAt_eq_none_iff] at fresh
      exact ⟨fun isStrict => fresh_cons_iff.1 ⟨ownFresh isStrict, fresh isStrict⟩, rfl⟩
    · rintro ⟨fresh, rfl⟩
      refine ⟨_, ⟨fun isStrict => (fresh_cons_iff.2 (fresh isStrict)).1, rfl⟩, ?_⟩
      refine (ih (first + 1)).2 ⟨fun isStrict => ?_, rfl⟩
      simp only [find?_bindAt_eq_none_iff]
      exact (fresh_cons_iff.2 (fresh isStrict)).2

/-- The labels of a program are found unless it is assembled strictly and some label is defined
twice. -/
theorem ofStatements_ok_iff :
    (ofStatements strict statements).result = .ok final ↔
      (strict = true → (statements.filterMap name?).Nodup) ∧ final = ofProgram statements := by
  rw [ofStatements, Noted.result_foldlM, foldlM_afterStatement_ok_iff]
  simp [ofProgram, find?]

/-- Where no label is defined twice, each names the statement that has it. -/
theorem find?_ofProgram_of_distinct (distinct : (statements.filterMap name?).Nodup) {k : Nat}
    {l : Lexeme} (at_k : statements[k]? = some s) (label : s.label = some l) :
    (ofProgram statements).find? l.text = some ⟨l.text, k, l.start⟩ := by
  have named : s.name? = some l.text := by simp [name?, label]
  have own : nameAt statements k = some l.text := by simp [nameAt, at_k, named]
  have last : ∀ j, k < j → nameAt statements j ≠ some l.text := by
    intro j later again
    exact Nat.ne_of_lt later (nameAt_injective distinct own again)
  rw [find?_ofProgram_of_last at_k named last, binding?, label]
  rfl

/-- The label of the last statement of a program is bound last. -/
theorem ofStatements_append (strict : Bool) (statements : List Statement) (s : Statement) :
    ofStatements strict (statements ++ [s]) =
      ofStatements strict statements >>= fun labels =>
        labels.afterStatement strict statements.length s := by
  simp [ofStatements, List.zipIdx_append]

end Assembly.Labels
end LittleMan
