import LittleMan.Proofs.Assembly.Meaning
import LittleMan.Proofs.Source.Lines
import LittleMan.Proofs.Statement.Form
import Mathlib.Data.List.Nodup

/-!
# Looking up lines and labels

Each statement stands on a line of its own, further down than the one before it, so lines and
addresses belong together one to one. So do labels and addresses: each label is kept with the last
statement that has it, and no two with the same one (`lookups_match`).
-/

namespace LittleMan.Assembly

open Source Statement

/-- The lines of a program and its addresses belong together. -/
structure LinesMatch (source : Text) (table : SymbolTable) : Prop where
  /-- The lines are kept, and each statement's is further down than the one before. -/
  increasing : ∃ kept, table.sourceMap = some kept ∧ kept.lines.Pairwise (· < ·)
  inverse : ∀ line address,
    table.addressOfLine? line = some address ↔ table.lineOfAddress? address = some line
  /-- Each statement has one line. -/
  unique : ∀ address, address < (ofSource source).length →
    ∃! line, table.lineOfAddress? address = some line
  beyond : ∀ address, (ofSource source).length ≤ address →
    ∀ line, table.lineOfAddress? address ≠ some line
  /-- A statement's line holds all its words. -/
  holds : ∀ address line s, (ofSource source)[address]? = some s →
    table.lineOfAddress? address = some line → ∀ word ∈ s.words, OnLine source line word

/-- The labels of a program and their addresses belong together. -/
structure LabelsMatch (source : Text) (table : SymbolTable) : Prop where
  inverse : ∀ label address,
    table.address? label = some address ↔ table.label? address = some label
  /-- In which order the bindings are kept makes no difference. -/
  unordered : ∀ order : Labels, order.Perm table.labels →
    ∀ address, order.labelAt? address = table.label? address
  /-- A label's address is that of the last statement that it labels, whose span starts with it. -/
  last : ∀ label address, table.address? label = some address →
    ∃ s, (ofSource source)[address]? = some s ∧ s.name? = some label ∧
      (∀ later, address < later → nameAt (ofSource source) later ≠ some label) ∧
      ∃ place, table.definition? label = some place ∧ place.start = s.span.start ∧
        place.stop = s.span.start + Text.byteLength label ∧ slice source place = label
  /-- No label is a mnemonic. -/
  other : ∀ label address, table.address? label = some address →
    ∀ m : Mnemonic, Text.upper label ≠ m.name.toList
  /-- A statement whose label is defined again further down has no label. -/
  overtaken : ∀ label earlier later, nameAt (ofSource source) earlier = some label →
    earlier < later → nameAt (ofSource source) later = some label →
    table.label? earlier = none

variable {source : Text} {statements : List Statement} {s : Statement}

/-! ## Lines -/

/-- The statements of a source, each with the number of its line. -/
def numbered (source : Text) : List (Statement × Nat) :=
  (wordsByLine source).zipIdx.filterMap fun (words, k) => (ofWords? words).map (·, k)

theorem fst_numbered (source : Text) : (numbered source).map Prod.fst = ofSource source := by
  have each : (fun x : List Lexeme × Nat => ((ofWords? x.1).map (·, x.2)).map Prod.fst) =
      ofWords? ∘ Prod.fst := by
    funext x
    simp [Option.map_map, Function.comp_def]
  rw [numbered, List.map_filterMap, each, ← List.filterMap_map, List.zipIdx_map_fst, ofSource,
    wordLines_tokens]

theorem mem_numbered_iff {k : Nat} :
    (s, k) ∈ numbered source ↔ ∃ words, (wordsByLine source)[k]? = some words ∧
      ofWords? words = some s := by
  simp only [numbered, List.mem_filterMap, Prod.exists, List.mem_zipIdx_iff_getElem?,
    Option.map_eq_some_iff, Prod.mk.injEq]
  constructor
  · rintro ⟨words, _, at_k, _, read, rfl, rfl⟩
    exact ⟨words, at_k, read⟩
  · rintro ⟨words, at_k, read⟩
    exact ⟨words, k, at_k, s, read, rfl, rfl⟩

theorem increasing_numbered (source : Text) :
    ((numbered source).map Prod.snd).Pairwise (· < ·) := by
  have apart : ((wordsByLine source).zipIdx.map Prod.snd).Pairwise (· < ·) := by
    rw [List.zipIdx_map_snd]
    exact List.pairwise_lt_range'
  rw [List.pairwise_map] at apart ⊢
  rw [numbered, List.pairwise_filterMap]
  refine apart.imp fun {x y} before => ?_
  rintro a first b second
  obtain ⟨s, -, rfl⟩ := Option.map_eq_some_iff.1 first
  obtain ⟨s', -, rfl⟩ := Option.map_eq_some_iff.1 second
  exact before

theorem onLine_of_mem_numbered {k : Nat} (member : (s, k) ∈ numbered source) :
    ∀ word ∈ s.words, OnLine source k word := by
  obtain ⟨words, at_k, read⟩ := mem_numbered_iff.1 member
  rw [words_ofWords? read]
  exact fun word => onLine_of_mem_wordsByLine at_k

/-- A statement is on a line further down than every statement before it. -/
theorem exists_lines {s' : Statement} {j k : Nat} (earlier : j < k)
    (at_j : (ofSource source)[j]? = some s) (at_k : (ofSource source)[k]? = some s') :
    ∃ line line', line < line' ∧ (∀ word ∈ s.words, OnLine source line word) ∧
      ∀ word ∈ s'.words, OnLine source line' word := by
  rw [← fst_numbered, List.getElem?_map] at at_j at_k
  obtain ⟨⟨_, line⟩, numbered_j, rfl⟩ := Option.map_eq_some_iff.1 at_j
  obtain ⟨⟨_, line'⟩, numbered_k, rfl⟩ := Option.map_eq_some_iff.1 at_k
  refine ⟨line, line', ?_, onLine_of_mem_numbered (List.mem_of_getElem? numbered_j),
    onLine_of_mem_numbered (List.mem_of_getElem? numbered_k)⟩
  have increasing := increasing_numbered source
  rw [List.pairwise_map, List.pairwise_iff_getElem] at increasing
  obtain ⟨inside_j, same_j⟩ := List.getElem?_eq_some_iff.1 numbered_j
  obtain ⟨inside_k, same_k⟩ := List.getElem?_eq_some_iff.1 numbered_k
  have below := increasing j k inside_j inside_k earlier
  rwa [same_j, same_k] at below

/-- The line of a statement is that of its first byte. -/
theorem lines_eq_numbered (source : Text) :
    ((ofSource source).map fun s => lineAt (lineStarts source) s.span.start) =
      (numbered source).map Prod.snd := by
  rw [← fst_numbered, List.map_map]
  refine List.map_congr_left fun (s, k) member => ?_
  obtain ⟨first, last, head, -, span⟩ := s.span_eq
  have onLine := onLine_of_mem_numbered member first (List.mem_of_mem_head? head)
  simp only [Function.comp_apply, span]
  exact onLine.lineAt_eq

theorem sourceMap_symbolTable (source : Text) :
    (symbolTable (some source) (ofSource source)).sourceMap =
      some ⟨source, (numbered source).map Prod.snd⟩ := by
  simp only [symbolTable, Option.map_some, lines_eq_numbered]

theorem lineOfAddress?_symbolTable (source : Text) (address : Nat) :
    (symbolTable (some source) (ofSource source)).lineOfAddress? address =
      ((numbered source).map Prod.snd)[address]? := by
  rw [SymbolTable.lineOfAddress?, sourceMap_symbolTable]
  rfl

theorem linesMatch_symbolTable (source : Text) :
    LinesMatch source (symbolTable (some source) (ofSource source)) := by
  have lines := sourceMap_symbolTable source
  have atAddress := lineOfAddress?_symbolTable source
  have length : (numbered source).length = (ofSource source).length := by
    rw [← fst_numbered, List.length_map]
  refine ⟨⟨_, lines, increasing_numbered source⟩, fun line address => ?_, fun address below => ?_,
    fun address beyond line => ?_, fun address line s at_s found => ?_⟩
  · rw [SymbolTable.addressOfLine?, lines, atAddress]
    exact place?_eq_some_iff (increasing_numbered source)
  · rw [atAddress, List.getElem?_eq_getElem (by simpa [length] using below)]
    exact ⟨_, rfl, fun line same => (Option.some.inj same).symm⟩
  · rw [atAddress, List.getElem?_eq_none (by simpa [length] using beyond)]
    exact nofun
  · rw [atAddress, List.getElem?_map] at found
    obtain ⟨⟨s', k⟩, at_address, rfl⟩ := Option.map_eq_some_iff.1 found
    rw [← fst_numbered, List.getElem?_map, at_address] at at_s
    cases at_s
    exact onLine_of_mem_numbered (List.mem_of_getElem? at_address)

/-! ## Labels -/

section Keys

variable {α κ : Type} [BEq κ] [LawfulBEq κ] {key : α → κ} {xs ys : List α} {k : κ} {x : α}

/-- Where keys differ, what is found for a key is what has it. -/
theorem find?_key_eq_some_iff (distinct : (xs.map key).Nodup) :
    xs.find? (key · == k) = some x ↔ x ∈ xs ∧ key x = k := by
  constructor
  · intro found
    exact ⟨List.mem_of_find?_eq_some found, by simpa using List.find?_some found⟩
  · rintro ⟨member, own⟩
    cases found : xs.find? (key · == k) with
    | none =>
      have absent := List.find?_eq_none.1 found x member
      simp [own] at absent
    | some y =>
      have same : key y = key x := by
        rw [own]
        simpa using List.find?_some found
      rw [List.inj_on_of_nodup_map distinct (List.mem_of_find?_eq_some found) member same]

theorem find?_key_of_perm (distinct : (xs.map key).Nodup) (order : ys.Perm xs) :
    ys.find? (key · == k) = xs.find? (key · == k) := by
  have distinct' : (ys.map key).Nodup := (order.map key).nodup_iff.2 distinct
  refine Option.ext fun x => ?_
  rw [find?_key_eq_some_iff distinct, find?_key_eq_some_iff distinct', order.mem_iff]

end Keys

namespace Labels

variable {labels : Labels} {b b' : Binding} {name : Text}

theorem nodup_define (distinct : (labels.map Binding.label).Nodup) :
    ((labels.define b).map Binding.label).Nodup := by
  rw [define, List.map_cons, List.nodup_cons]
  refine ⟨fun again => ?_, distinct.sublist (List.filter_sublist.map Binding.label)⟩
  obtain ⟨other, member, same⟩ := List.mem_map.1 again
  simpa [same] using (List.mem_filter.1 member).2

theorem nodup_bindFrom (distinct : (labels.map Binding.label).Nodup) (first : Nat) :
    ((bindFrom labels first statements).map Binding.label).Nodup := by
  induction statements generalizing labels first with
  | nil => exact distinct
  | cons s rest ih =>
    rw [bindFrom_cons]
    refine ih ?_ (first + 1)
    unfold bindAt
    split
    · exact distinct
    · exact nodup_define distinct

/-- Each label of a program has one binding. -/
theorem nodup_ofProgram (statements : List Statement) :
    ((ofProgram statements).map Binding.label).Nodup := by
  have none : (([] : Labels).map Binding.label).Nodup := List.nodup_nil
  exact nodup_bindFrom none 0

/-- A label is bound by the last statement that has it. -/
theorem binding?_of_find?_ofProgram (found : (ofProgram statements).find? name = some b) :
    ∃ s, statements[b.address]? = some s ∧ s.name? = some name ∧
      s.binding? b.address = some b := by
  obtain ⟨named, last⟩ := last_of_find?_ofProgram found
  obtain ⟨s, at_address, own⟩ := Option.bind_eq_some_iff.1 named
  exact ⟨s, at_address, own, (find?_ofProgram_of_last at_address own last).symm.trans found⟩

/-- A label's definition is that of the statement whose address it names. -/
theorem label_of_find?_ofProgram (found : (ofProgram statements).find? name = some b) :
    ∃ s l, statements[b.address]? = some s ∧ s.label = some l ∧ l.text = name ∧
      b.span = l.span := by
  obtain ⟨s, at_address, own, binding⟩ := binding?_of_find?_ofProgram found
  obtain ⟨l, label, same⟩ := Option.map_eq_some_iff.1 own
  have made : (⟨l.text, b.address, l.start⟩ : Binding) = b := by
    simpa [binding?, label] using binding
  exact ⟨s, l, at_address, label, same, (congrArg Binding.span made).symm⟩

theorem mem_ofProgram_iff :
    b ∈ ofProgram statements ↔ (ofProgram statements).find? b.label = some b := by
  rw [find?, find?_key_eq_some_iff (nodup_ofProgram statements)]
  simp

/-- No two labels of a program have the same address. -/
theorem nodup_addresses (statements : List Statement) :
    ((ofProgram statements).map Binding.address).Nodup := by
  refine (nodup_ofProgram statements).of_map.map_on fun b member b' member' same => ?_
  obtain ⟨s, at_address, -, own⟩ := binding?_of_find?_ofProgram (mem_ofProgram_iff.1 member)
  obtain ⟨s', at_address', -, own'⟩ := binding?_of_find?_ofProgram (mem_ofProgram_iff.1 member')
  rw [← same, at_address] at at_address'
  cases at_address'
  rw [← same, own] at own'
  exact Option.some.inj own'

/-- A label is that of an address exactly if the address is that of the label. -/
theorem labelAt?_ofProgram_iff {address : Nat} :
    (ofProgram statements).labelAt? address = some name ↔
      ((ofProgram statements).find? name).map Binding.address = some address := by
  simp only [labelAt?, Option.map_eq_some_iff, find?_key_eq_some_iff (nodup_addresses statements)]
  constructor
  · rintro ⟨b, ⟨member, rfl⟩, rfl⟩
    exact ⟨b, mem_ofProgram_iff.1 member, rfl⟩
  · rintro ⟨b, found, rfl⟩
    refine ⟨b, ⟨List.mem_of_find?_eq_some found, rfl⟩, ?_⟩
    simpa using List.find?_some found

end Labels

theorem span_start_of_label {l : Lexeme} (label : s.label = some l) : s.span.start = l.start := by
  obtain ⟨first, last, head, -, span⟩ := s.span_eq
  rw [Statement.words, label] at head
  obtain rfl : l = first := by simpa using head
  rw [span]
  rfl

theorem labelsMatch_symbolTable (source : Text) :
    LabelsMatch source (symbolTable (some source) (ofSource source)) := by
  refine ⟨fun label address => Labels.labelAt?_ofProgram_iff.symm, fun order same address => ?_,
    fun label address found => ?_, fun label address found m named => ?_,
    fun label earlier later first below second => ?_⟩
  · have found : List.find? (·.address == address) order =
        List.find? (·.address == address) (Labels.ofProgram (ofSource source)) :=
      find?_key_of_perm (Labels.nodup_addresses (ofSource source)) same
    rw [Labels.labelAt?, found]
    rfl
  · obtain ⟨b, bound, rfl⟩ := Option.map_eq_some_iff.1 found
    obtain ⟨s, l, at_address, given, rfl, place⟩ := Labels.label_of_find?_ofProgram bound
    have own : s.name? = some l.text := by simp [name?, given]
    have starts := span_start_of_label given
    have placed := placed_of_mem_ofSource (List.mem_of_getElem? at_address)
    have occurs : Occurs source l := placed.occurs l (by simp [Statement.words, given])
    refine ⟨s, at_address, own, (Labels.last_of_find?_ofProgram bound).2, l.span, ?_, ?_, ?_, ?_⟩
    · exact Option.map_eq_some_iff.2 ⟨b, bound, place⟩
    · rw [starts]
      rfl
    · rw [starts]
      rfl
    · exact occurs.slice_eq
  · obtain ⟨b, bound, rfl⟩ := Option.map_eq_some_iff.1 found
    obtain ⟨s, at_address, own, -⟩ := Labels.binding?_of_find?_ofProgram bound
    have unknown := (readable_form (List.mem_of_getElem? at_address)).label label own
    rw [Verb.isKnown_ofText_iff.2 ⟨m, named⟩] at unknown
    cases unknown
  · cases found : (symbolTable (some source) (ofSource source)).label? earlier with
    | none => rfl
    | some other =>
      have back := Labels.address_find?_ofProgram_iff.1 (Labels.labelAt?_ofProgram_iff.1 found)
      obtain rfl : label = other := by simpa [first] using back.1
      exact absurd second (back.2 later below)

/-- In the symbol table of every program, lines and addresses belong together one to one, and so do
labels and addresses. -/
theorem lookups_match {strict : Bool} {table : SymbolTable}
    (tabled : (SymbolTable.ofStatements strict (some source) (ofSource source)).result = .ok table) :
    LinesMatch source table ∧ LabelsMatch source table := by
  obtain ⟨-, rfl⟩ := symbolTable_ok_iff.1 tabled
  exact ⟨linesMatch_symbolTable source, labelsMatch_symbolTable source⟩

/-- A label is defined twice, and lines without words stand between the statements. -/
def scatteredSource : Text := "// é\nA LDA B\n\n  A STA B // again\n\tB DAT".toList

theorem lookups_match_scattered : ∃ table,
    (SymbolTable.ofStatements false (some scatteredSource) (ofSource scatteredSource)).result =
      .ok table ∧ table.addressOfLine? 3 = some 1 ∧ table.label? 1 = some "A".toList ∧
      table.label? 0 = none := by
  have tabled : (SymbolTable.ofStatements false (some scatteredSource)
      (ofSource scatteredSource)).result = .ok (symbolTable (some scatteredSource) _) :=
    symbolTable_ok_iff.2 ⟨by simp, rfl⟩
  obtain ⟨lines, labels⟩ := lookups_match tabled
  refine ⟨_, tabled, (lines.inverse 3 1).2 ?_, (labels.inverse "A".toList 1).1 ?_,
    labels.overtaken "A".toList 0 1 ?_ (by decide) ?_⟩
  · decide +kernel
  · decide +kernel
  · decide +kernel
  · decide +kernel

end LittleMan.Assembly
