import LittleMan.CommandLine.Listing
import LittleMan.Proofs.Assembly.Bare
import LittleMan.Proofs.Instruction

/-!
# Listings are programs

The texts that the written cells are listed as, one a line, are a source again. It is assembled to
the words of the listed object file, but for code that has no hundreds, which is listed as the halt
instruction (`assemble_listedSource`).
-/

namespace LittleMan

open Assembly Source Statement

/-! ## What is listed can be read -/

namespace Decimal

theorem signed_eq_padded (n : Int) : signed n = padded 0 n := by simp [signed, padded]

theorem padded_chars {width : Nat} {n : Int} {c : Char} (member : c ∈ padded width n) :
    c = '-' ∨ c.isDigit = true := by
  simp only [padded, List.mem_append] at member
  rcases member with (signs | zeros) | written
  · rw [sign] at signs
    split at signs
    · exact .inl (by simpa using signs)
    · cases signs
  · rw [List.eq_of_mem_replicate zeros]
    exact .inr rfl
  · exact .inr (isDigit_of_mem_digits written)

theorem isWordChar_of_isDigit {c : Char} (digit : c.isDigit = true) : isWordChar c = true := by
  have differs : ∀ d : Char, d.isDigit = false → c ≠ d := by
    rintro d other rfl
    rw [digit] at other
    cases other
  simp [isWordChar, isGap, differs ' ' rfl, differs '\t' rfl, differs '\r' rfl,
    differs '\x0B' rfl, differs '\x0C' rfl, differs '\n' rfl]

theorem standsAlone_padded (width : Nat) (n : Int) : StandsAlone (padded width n) := by
  refine ⟨by simp [padded, digits_ne_nil], fun c member => ?_, ?_⟩
  · rcases padded_chars member with rfl | digit
    · decide
    · exact isWordChar_of_isDigit digit
  · have spoken : '/' ∉ padded width n := by
      intro member
      rcases padded_chars member with minus | digit
      · exact absurd minus (by decide)
      · exact absurd digit (by decide)
    cases written : padded width n with
    | nil => rfl
    | cons c rest =>
      rw [written, List.mem_cons, not_or] at spoken
      simp [opensComment, List.isPrefixOf, spoken.1]

end Decimal

namespace CommandLine

/-- What an instruction says as a statement. -/
def instructionForm (i : Instruction) : Form :=
  ⟨none, .known i.mnemonic, i.address?.map fun a => addressText a.val⟩

/-- What a word says as data. -/
def dataForm (word : Word) : Form := ⟨none, .known .dat, some word.text⟩

/-- What a cell says as a statement. -/
def cellForm (isData : Bool) (word : Word) : Form :=
  match Instruction.decode word, isData with
  | some i, false => instructionForm i
  | _, _ => dataForm word

theorem text_eq_writtenLine (i : Instruction) : i.text = writtenLine (instructionForm i).words := by
  cases address : i.address? with
  | none => simp [Instruction.text, instructionForm, address, Form.words, Verb.text, writtenLine,
      Text.join]
  | some a => simp [Instruction.text, instructionForm, address, Form.words, Verb.text, writtenLine,
      Text.join]

theorem cellText_eq_writtenLine (isData : Bool) (word : Word) :
    cellText isData word = writtenLine (cellForm isData word).words := by
  have data : "DAT ".toList ++ word.text = writtenLine (dataForm word).words := rfl
  unfold cellText cellForm
  cases Instruction.decode word with
  | none => exact data
  | some i =>
    cases isData with
    | true => exact data
    | false => exact text_eq_writtenLine i

/-- A cell is listed as the instruction that its word means, or else as data. -/
theorem cellForm_cases (isData : Bool) (word : Word) :
    (∃ i, isData = false ∧ Instruction.decode word = some i ∧
      cellForm isData word = instructionForm i) ∨
    ((isData = false → Instruction.decode word = none) ∧ cellForm isData word = dataForm word) := by
  unfold cellForm
  cases known : Instruction.decode word with
  | none => exact .inr ⟨fun _ => rfl, rfl⟩
  | some i =>
    cases isData with
    | true => exact .inr ⟨by simp, rfl⟩
    | false => exact .inl ⟨i, rfl, rfl, rfl⟩

theorem readable_of_mnemonic {m : Mnemonic} {operand : Option Text}
    (alone : ∀ word, operand = some word → StandsAlone word) :
    Form.Readable ⟨none, .known m, operand⟩ := by
  refine ⟨fun word member => ?_, by simp, Verb.ofText_name m, fun _ _ => rfl⟩
  have said : word = m.name.toList ∨ operand = some word := by
    simpa [Form.words, Verb.text, Option.mem_toList] using member
  rcases said with rfl | given
  · exact m.standsAlone_name
  · exact alone word given

theorem readable_cellForm (isData : Bool) (word : Word) : (cellForm isData word).Readable := by
  rcases cellForm_cases isData word with ⟨i, -, -, same⟩ | ⟨-, same⟩
  · rw [same]
    refine readable_of_mnemonic fun operand given => ?_
    obtain ⟨a, -, rfl⟩ := Option.map_eq_some_iff.1 given
    exact Decimal.standsAlone_padded 2 a.val
  · rw [same]
    refine readable_of_mnemonic fun operand given => ?_
    cases given
    rw [Word.text, Decimal.signed_eq_padded]
    exact Decimal.standsAlone_padded 0 word.toInt

/-- What a cell says has no label and a mnemonic. -/
theorem cellForm_bare (isData : Bool) (word : Word) :
    (cellForm isData word).label = none ∧ (cellForm isData word).verb.isKnown = true := by
  rcases cellForm_cases isData word with ⟨i, -, -, same⟩ | ⟨-, same⟩
  · rw [same]
    exact ⟨rfl, rfl⟩
  · rw [same]
    exact ⟨rfl, rfl⟩

/-! ## The statements of a listing -/

/-- The texts that the written cells are listed as, one a line. -/
def listedSource (o : ObjectFile) : Text :=
  Text.join ['\n'] (o.cells.map fun (word, address) => listedText o address word)

/-- What a cell of an object file says. -/
def listedForm (o : ObjectFile) (address : Nat) (word : Word) : Form :=
  cellForm (o.symbols.any (·.isData address)) word

variable {o : ObjectFile} {k : Nat} {s : Statement}

theorem listedSource_eq_written (o : ObjectFile) :
    listedSource o =
      written ((o.cells.map fun (word, address) => listedForm o address word).map Form.words) := by
  rw [listedSource, written, List.map_map, List.map_map]
  congr 1
  exact List.map_congr_left fun cell _ => cellText_eq_writtenLine _ _

theorem bare_listedSource (o : ObjectFile) :
    Bare (listedSource o) (o.cells.map fun (word, address) => listedForm o address word) := by
  rw [listedSource_eq_written]
  refine bare_written (fun f member => ?_) fun f member => ?_
  · obtain ⟨cell, -, rfl⟩ := List.mem_map.1 member
    exact readable_cellForm _ _
  · obtain ⟨cell, -, rfl⟩ := List.mem_map.1 member
    exact cellForm_bare _ _

theorem length_listed (o : ObjectFile) :
    (ofSource (listedSource o)).length = min o.length memorySize := by
  have lengths := (bare_listedSource o).length_eq
  simpa [ObjectFile.cells] using lengths

theorem lt_of_listed (at_k : (ofSource (listedSource o))[k]? = some s) :
    k < o.length ∧ k < memorySize := by
  have below := (List.getElem?_eq_some_iff.1 at_k).1
  rw [length_listed] at below
  exact Nat.lt_min.1 below

/-- Each written cell is a statement of the listing. -/
theorem form_of_listed (at_k : (ofSource (listedSource o))[k]? = some s) (inside : k < memorySize) :
    s.form = listedForm o k o.words[k] := by
  have forms := (bare_listedSource o).getElem?_forms at_k
  simpa [ObjectFile.cells, List.getElem?_take, List.getElem?_zipIdx, lt_of_listed at_k,
    inside, eq_comm] using forms

/-! ## The words of a listing -/

section Words

variable {statements : List Statement} {word again : Word} {i : Instruction}

theorem ofText?_addressText (a : Address) :
    Word.ofText? (addressText a.val) = some (Int32.ofInt a.val) := by
  have bound : a.val < 100 := a.isLt
  rw [Word.ofText?, addressText, Decimal.integer?_padded, Option.bind_some, Word.ofInt?,
    if_pos (by omega)]

theorem ofText?_text (word : Word) : Word.ofText? word.text = some word := by
  rw [Word.ofText?, Word.text, Decimal.signed_eq_padded, Decimal.integer?_padded, Option.bind_some,
    Word.ofInt?_toInt]

/-- What an instruction says comes to its own word. -/
theorem comesTo_instructionForm (unnamed : ∀ k name, nameAt statements k ≠ some name)
    (said : s.form = instructionForm i) (comes : ComesTo statements s again) :
    again = i.encode := by
  have verb : s.verb = .known i.mnemonic := congrArg Form.verb said
  cases comes with
  | inp known =>
    obtain rfl : i = .inp := by cases i <;> simp_all [Instruction.mnemonic]
    rfl
  | out known =>
    obtain rfl : i = .out := by cases i <;> simp_all [Instruction.mnemonic]
    rfl
  | hlt known =>
    obtain rfl : i = .hlt := by cases i <;> simp_all [Instruction.mnemonic]
    rfl
  | @withOperand m value known counts stands =>
    obtain rfl : i.mnemonic = m := by simpa [verb] using known
    obtain ⟨a, address⟩ := Instruction.exists_address (counts.resolve_right i.mnemonic_ne_dat)
    have operand : s.operand.map Lexeme.text = some (addressText a.val) := by
      have given := congrArg Form.operand said
      rwa [instructionForm, address] at given
    rw [value_of_unnamed unnamed operand (ofText?_addressText a) stands, ← base_add_ofInt,
      Int32.ofInt_toInt, Instruction.encode, address]
    rfl

theorem comesTo_dataForm (unnamed : ∀ k name, nameAt statements k ≠ some name)
    (said : s.form = dataForm word) (comes : ComesTo statements s again) : again = word :=
  comesTo_data unnamed said (ofText?_text word) comes

/-- A listed cell comes to its own word, unless it is code that halts. -/
theorem comesTo_cellForm {isData : Bool} (unnamed : ∀ k name, nameAt statements k ≠ some name)
    (said : s.form = cellForm isData word) (comes : ComesTo statements s again) :
    again = if isData = false ∧ Instruction.decode word = some .hlt then 0 else word := by
  rcases cellForm_cases isData word with ⟨i, code, known, same⟩ | ⟨unknown, same⟩
  · have own := comesTo_instructionForm unnamed (said.trans same) comes
    by_cases halts : i = .hlt
    · subst halts
      rw [if_pos ⟨code, known⟩, own]
      rfl
    · rw [if_neg (by simp [known, halts]), own]
      exact Instruction.encode_of_decode known halts
  · rw [if_neg fun short => by simp [unknown short.1] at short]
    exact comesTo_dataForm unnamed (said.trans same) comes

theorem permitted_instructionForm (said : s.form = instructionForm i) : Permitted statements s := by
  refine ⟨i.mnemonic, congrArg Form.verb said, fun takes => ?_, fun data => ?_⟩
  · obtain ⟨a, address⟩ := Instruction.exists_address takes
    have given := congrArg Form.operand said
    rw [instructionForm, address] at given
    obtain ⟨operand, stands, text⟩ := Option.map_eq_some_iff.1 given
    have read : Word.ofText? operand.text = some (Int32.ofInt a.val) := by
      rw [text]
      exact ofText?_addressText a
    have bound : a.val < 100 := a.isLt
    have value : (Int32.ofInt a.val).toInt = a.val :=
      Int32.toInt_ofInt_of_le (by omega) (by omega)
    refine ⟨operand, stands, .inr ⟨_, read, ?_, ?_⟩⟩
    · omega
    · omega
  · exact absurd data i.mnemonic_ne_dat

theorem permitted_dataForm (said : s.form = dataForm word)
    (range : -999 ≤ word.toInt ∧ word.toInt ≤ 999) : Permitted statements s :=
  permitted_data said (ofText?_text word) range

end Words

/-! ## Assembly of a listing -/

section Programs

variable {strict symbols : Bool} {options : Options} {source : Text} {object again : ObjectFile}

/-- The cell of a statement that is not data holds a word of fewer than three digits. -/
def ShortCode (statements : List Statement) (k : Nat) (word : Word) : Prop :=
  ∃ s, statements[k]? = some s ∧ s.verb ≠ .known .dat ∧ -99 ≤ word.toInt ∧ word.toInt ≤ 99

theorem shortCode_iff {statements : List Statement} (at_k : statements[k]? = some s) {word : Word} :
    ShortCode statements k word ↔
      (s.verb == .known .dat) = false ∧ Instruction.decode word = some .hlt := by
  simp [ShortCode, at_k, Instruction.decode_eq_hlt_iff]

theorem isData_of_assemble
    (accepted : (assemble { strict, symbols := true } source).result = .ok object)
    (at_k : (ofSource source)[k]? = some s) :
    object.symbols.any (·.isData k) = (s.verb == .known .dat) := by
  obtain ⟨-, -, symbols⟩ := object_of_assemble accepted
  simp [symbols, SymbolTable.isData, symbolTable, List.getD_eq_getElem?_getD, at_k]

/-- In lenient assembly every listing is a program. -/
theorem exists_lenient (o : ObjectFile) (symbols : Bool) :
    ∃ again, (assemble { strict := false, symbols } (listedSource o)).result = .ok again :=
  (bare_listedSource o).exists_lenient symbols

theorem length_of_relisted
    (accepted : (assemble { strict, symbols := true } source).result = .ok object)
    (relisted : (assemble options (listedSource object)).result = .ok again) :
    again.length = object.length := by
  obtain ⟨length, -⟩ := object_of_assemble accepted
  obtain ⟨length', -⟩ := object_of_assemble relisted
  rw [length', length_listed, length]
  omega

/-- Each cell of a listing comes back, but for code of fewer than three digits. -/
theorem getElem_of_relisted
    (accepted : (assemble { strict, symbols := true } source).result = .ok object)
    (relisted : (assemble { strict := false, symbols } (listedSource object)).result = .ok again)
    (inside : k < memorySize) :
    (ShortCode (ofSource source) k object.words[k] → again.words[k] = 0) ∧
      (¬ ShortCode (ofSource source) k object.words[k] → again.words[k] = object.words[k]) := by
  have few : (ofSource (listedSource object)).length < 2 ^ 31 := by
    rw [length_listed]
    exact Nat.lt_of_le_of_lt (Nat.min_le_right _ _) (by decide)
  obtain ⟨-, written, unwritten'⟩ := imageOf_of_assemble few relisted
  obtain ⟨length, unwritten, -⟩ := object_of_assemble accepted
  rw [length_of_relisted accepted relisted] at unwritten'
  cases at_k : (ofSource source)[k]? with
  | none =>
    have beyond : object.length ≤ k := by
      have past := List.getElem?_eq_none_iff.1 at_k
      omega
    rw [unwritten k inside beyond, unwritten' k inside beyond]
    exact ⟨fun _ => rfl, fun _ => rfl⟩
  | some s =>
    have wrote : k < (ofSource (listedSource object)).length := by
      have below := (List.getElem?_eq_some_iff.1 at_k).1
      rw [length_listed, length]
      omega
    have at_k' := List.getElem?_eq_getElem wrote
    have said := form_of_listed at_k' inside
    rw [listedForm, isData_of_assemble accepted at_k] at said
    have own := comesTo_cellForm (bare_listedSource object).unnamed said (written k inside _ at_k')
    rw [shortCode_iff at_k, own]
    exact ⟨fun short => if_pos short, fun long => if_neg long⟩

/-! ## Strict assembly -/

/-- In a program that strict assembly accepts, data has three digits at most, and any other cell holds
the word of the instruction that it means. -/
theorem cell_of_strict (accepted : (assemble { strict := true, symbols } source).result = .ok object)
    (at_k : (ofSource source)[k]? = some s) (inside : k < memorySize) :
    (s.verb = .known .dat → -999 ≤ object.words[k].toInt ∧ object.words[k].toInt ≤ 999) ∧
      (s.verb ≠ .known .dat → ∃ i, Instruction.decode object.words[k] = some i ∧
        i.encode = object.words[k]) := by
  have encoded := encode_of_assemble accepted at_k inside
  refine ⟨fun data => ?_, fun code => ?_⟩
  · obtain ⟨m, known, encoded⟩ := encode_ok_iff.1 encoded
    rw [data] at known
    cases known
    rw [if_neg (by decide)] at encoded
    obtain ⟨value, -, fits, same⟩ := encodeWithOperand_ok_iff.1 encoded
    have own : object.words[k] = value := by simpa [Mnemonic.base] using same
    simpa [allowed, Mnemonic.takesAddress, own] using fits rfl
  · obtain ⟨table, tabled, -⟩ := assemble_ok_iff.1 accepted
    obtain ⟨i, asks, known⟩ :=
      decode_encode_statement ((labels_of_symbolTable tabled).1 rfl) code encoded
    refine ⟨i, known, ?_⟩
    by_cases halts : i = .hlt
    · subst halts
      obtain ⟨m, verb, encoded⟩ := encode_ok_iff.1 encoded
      rw [asks.1] at verb
      cases verb
      exact encoded.symm
    · exact Instruction.encode_of_decode known halts

/-- The listing of a program that strict assembly accepts is another such program. -/
theorem acceptable_listed
    (accepted : (assemble { strict := true, symbols := true } source).result = .ok object) :
    Acceptable (ofSource (listedSource object)) := by
  refine ⟨fun name j k named => absurd named ((bare_listedSource object).unnamed j name), ?_, ?_⟩
  · rw [length_listed]
    exact Nat.min_le_right _ _
  · intro t member
    obtain ⟨k, at_k'⟩ := List.mem_iff_getElem?.1 member
    obtain ⟨wrote, inside⟩ := lt_of_listed at_k'
    rw [(object_of_assemble accepted).1] at wrote
    have at_k := List.getElem?_eq_getElem (show k < (ofSource source).length by omega)
    have said := form_of_listed at_k' inside
    rw [listedForm, isData_of_assemble accepted at_k] at said
    obtain ⟨data, code⟩ := cell_of_strict accepted at_k inside
    rcases cellForm_cases _ object.words[k] with ⟨i, -, -, same⟩ | ⟨unknown, same⟩
    · exact permitted_instructionForm (said.trans same)
    · refine permitted_dataForm (said.trans same) (data ?_)
      apply Classical.byContradiction
      intro other
      obtain ⟨i, known, -⟩ := code other
      rw [unknown (by simpa using other)] at known
      cases known

/-- The texts that the written cells of a program are listed as are a program of the same length with
the same words, except that code of fewer than three digits comes back as 0. A program that strict
assembly accepts comes back as a whole, in strict assembly too. -/
theorem assemble_listedSource
    (accepted : (assemble { strict, symbols := true } source).result = .ok object)
    (options : Options) (asStrict : options.strict = true → strict = true) :
    ∃ again, (assemble options (listedSource object)).result = .ok again ∧
      again.length = object.length ∧
      (∀ (k : Nat) (inside : k < memorySize),
        (ShortCode (ofSource source) k object.words[k] → again.words[k] = 0) ∧
        (¬ ShortCode (ofSource source) k object.words[k] → again.words[k] = object.words[k])) ∧
      (strict = true → again.words = object.words) := by
  obtain ⟨again, relisted, lenient⟩ : ∃ again,
      (assemble options (listedSource object)).result = .ok again ∧
      (assemble { strict := false, symbols := options.symbols } (listedSource object)).result =
        .ok again := by
    obtain ⟨asked, kept⟩ := options
    cases asked with
    | false =>
      obtain ⟨again, lenient⟩ := exists_lenient object kept
      exact ⟨again, lenient, lenient⟩
    | true =>
      obtain rfl := asStrict rfl
      obtain ⟨again, relisted⟩ := exists_assemble_of_acceptable kept (acceptable_listed accepted)
      exact ⟨again, relisted, assemble_lenient relisted⟩
  refine ⟨again, relisted, length_of_relisted accepted relisted,
    fun k inside => getElem_of_relisted accepted lenient inside, fun isStrict => ?_⟩
  subst isStrict
  refine Vector.ext fun k inside => ?_
  obtain ⟨short, long⟩ := getElem_of_relisted accepted lenient inside
  by_cases isShort : ShortCode (ofSource source) k object.words[k]
  · have comesBack := short isShort
    obtain ⟨s, at_k, code, range⟩ := isShort
    obtain ⟨i, known, own⟩ := (cell_of_strict accepted at_k inside).2 code
    rw [Instruction.decode_eq_hlt_iff.2 range] at known
    cases known
    rw [comesBack, ← own]
    rfl
  · exact long isShort

/-- A load that comes to 50, an addition beyond the largest word, and data that looks like code. -/
def wrappedSource : Text := "LDA -450\nADD 2147483647\nDAT 901".toList

theorem assemble_listedSource_wrapped :
    ∃ object again, (assemble { symbols := true } wrappedSource).result = .ok object ∧
      (assemble {} (listedSource object)).result = .ok again ∧ again.length = object.length ∧
      object.words[0] = 50 ∧ again.words[0] = 0 := by
  have first : (assemble { symbols := true } wrappedSource).result.toOption.map
      (fun object => object.words[0]) = some 50 := by decide +kernel
  obtain ⟨object, made, short⟩ := Option.map_eq_some_iff.1 first
  have accepted : (assemble { symbols := true } wrappedSource).result = .ok object := by
    cases result : (assemble { symbols := true } wrappedSource).result with
    | error e => rw [result] at made; cases made
    | ok o => rw [result] at made; cases made; rfl
  have at_0 : (ofSource wrappedSource)[0]? =
      some ⟨none, ⟨"LDA".toList, 0⟩, some ⟨"-450".toList, 4⟩, []⟩ := by decide +kernel
  have isShort : ShortCode (ofSource wrappedSource) 0 object.words[0] := by
    rw [shortCode_iff at_0, short]
    decide +kernel
  obtain ⟨again, relisted, length, cells, -⟩ := assemble_listedSource accepted {} (by simp)
  exact ⟨object, again, accepted, relisted, length, short, (cells 0 (by decide)).1 isShort⟩

end Programs

end CommandLine
end LittleMan
