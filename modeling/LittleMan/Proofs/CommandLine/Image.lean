import LittleMan.Proofs.Assembly.Bare
import LittleMan.Proofs.CommandLine.Console
import LittleMan.Proofs.CommandLine.Listing
import LittleMan.Proofs.Machine.ThreeDigits

/-!
# Memory images are lossless

The image of a memory that is printed is cut at white space into one token for each cell, which
reads as the word of the cell. So these tokens, written as data one a line, are a program with the
same words (`image_lossless`).
-/

namespace LittleMan

namespace Text

variable {t : Text} {c : Char} {ts : List Text}

/-- The pieces of a text between white space. Empty pieces are left out. -/
def tokens (t : Text) : List Text := (t.splitOnP isBlank).filter (· ≠ [])

/-- White space cuts a text into what is before it and what is behind. -/
theorem tokens_append_cons (blank : isBlank c = true) (t u : Text) :
    tokens (t ++ c :: u) = tokens t ++ tokens u := by
  rw [tokens, List.splitOnP_append_cons t u blank, List.filter_append, tokens, tokens]

@[simp] theorem tokens_nil : tokens [] = [] := by
  rw [tokens, List.splitOnP_nil]
  rfl

theorem tokens_of_solid (shown : t ≠ []) (solid : ∀ c ∈ t, isBlank c = false) : tokens t = [t] := by
  rw [tokens, List.splitOnP_eq_singleton solid, List.filter_cons_of_pos (by simpa using shown),
    List.filter_nil]

theorem tokens_join (solid : ∀ t ∈ ts, t ≠ [] ∧ ∀ c ∈ t, isBlank c = false) :
    tokens (join [' '] ts) = ts := by
  have space : isBlank ' ' = true := by decide
  induction ts with
  | nil => exact tokens_nil
  | cons t more ih =>
    rw [List.forall_mem_cons] at solid
    have first := tokens_of_solid solid.1.1 solid.1.2
    cases more with
    | nil => exact first
    | cons next more =>
      rw [join, List.append_assoc, List.singleton_append, tokens_append_cons space, first,
        ih solid.2]
      · rfl
      · exact List.cons_ne_nil next more

/-- Each line adds its own tokens. -/
theorem tokens_lines (lines : List Text) :
    tokens (lines.flatMap (· ++ ['\n'])) = lines.flatMap tokens := by
  have newline : isBlank '\n' = true := by decide
  induction lines with
  | nil => exact tokens_nil
  | cons line lines ih =>
    rw [List.flatMap_cons, List.append_assoc, List.singleton_append, tokens_append_cons newline, ih,
      List.flatMap_cons]

theorem isBlank_of_isDigit (digit : c.isDigit = true) : isBlank c = false := by
  have inside : 48 ≤ c.toNat ∧ c.toNat ≤ 57 := by
    simpa [Char.isDigit, UInt32.le_iff_toNat_le] using digit
  have apart : ∀ range ∈ blankRanges, range.2 < 48 ∨ 57 < range.1 := by decide
  refine List.any_eq_false.2 fun range member => ?_
  have outside := apart range member
  simp only [Bool.and_eq_true, decide_eq_true_eq]
  omega

end Text

/-- The windows of a list, one after another, are the list. -/
theorem flatMap_windows {α : Type} (l : List α) (width n : Nat) :
    (List.range n).flatMap (fun k => (l.drop (width * k)).take width) = l.take (width * n) := by
  induction n with
  | zero => simp
  | succ n ih =>
    rw [List.range_succ, List.flatMap_append, ih, Nat.mul_succ, List.take_add]
    simp

namespace CommandLine

open Assembly Source Statement

variable {words : Memory} {texts : List Text} {object : ObjectFile} {s : Statement} {k : Nat}

theorem solid_threeDigits (word : Word) :
    word.threeDigits ≠ [] ∧ ∀ c ∈ word.threeDigits, Text.isBlank c = false := by
  refine ⟨(Decimal.standsAlone_padded 3 word.toInt).shown, fun c member => ?_⟩
  rcases Decimal.padded_chars member with rfl | digit
  · decide
  · exact Text.isBlank_of_isDigit digit

/-- The tokens of an image are the words of the memory. -/
theorem tokens_imageLines (memory : Memory) :
    Text.tokens ((imageLines memory).flatMap (· ++ ['\n'])) =
      memory.toList.map Word.threeDigits := by
  have row : ∀ ws : List Word,
      Text.tokens (Text.join [' '] (ws.map Word.threeDigits)) = ws.map Word.threeDigits := by
    intro ws
    refine Text.tokens_join fun t member => ?_
    obtain ⟨word, -, rfl⟩ := List.mem_map.1 member
    exact solid_threeDigits word
  rw [Text.tokens_lines, imageLines, List.flatMap_map]
  simp only [row]
  rw [← List.map_flatMap, flatMap_windows, List.take_of_length_le (by simp)]

/-! ## Programs of data -/

/-- Data of each text, one a line. -/
def dataSource (texts : List Text) : Text :=
  Text.join ['\n'] (texts.map ("DAT ".toList ++ ·))

theorem bare_dataSource (alone : ∀ t ∈ texts, StandsAlone t) :
    Bare (dataSource texts) (texts.map fun t => ⟨none, .known .dat, some t⟩) := by
  have same : dataSource texts = written
      ((texts.map fun t => (⟨none, .known .dat, some t⟩ : Form)).map Form.words) := by
    rw [dataSource, written, List.map_map, List.map_map]
    rfl
  rw [same]
  refine bare_written (fun f member => ?_) fun f member => ?_
  · obtain ⟨t, given, rfl⟩ := List.mem_map.1 member
    refine readable_of_mnemonic fun operand stands => ?_
    cases stands
    exact alone t given
  · obtain ⟨t, -, rfl⟩ := List.mem_map.1 member
    exact ⟨rfl, rfl⟩

theorem form_of_dataSource (alone : ∀ t ∈ texts, StandsAlone t)
    (at_k : (ofSource (dataSource texts))[k]? = some s) :
    ∃ t, texts[k]? = some t ∧ s.form = ⟨none, .known .dat, some t⟩ := by
  have said := (bare_dataSource alone).getElem?_forms at_k
  rw [List.getElem?_map] at said
  obtain ⟨t, at_t, same⟩ := Option.map_eq_some_iff.1 said
  exact ⟨t, at_t, same.symm⟩

/-- The texts read as the words of the memory, one for each cell. -/
structure Spells (texts : List Text) (words : Memory) : Prop where
  length_eq : texts.length = memorySize
  word_eq : ∀ (k : Nat) (inside : k < memorySize), ∃ t, texts[k]? = some t ∧
    Word.ofText? t = some words[k]

theorem acceptable_dataSource (alone : ∀ t ∈ texts, StandsAlone t) (spells : Spells texts words)
    (digits : words.ThreeDigits) : Acceptable (ofSource (dataSource texts)) := by
  have bare := bare_dataSource alone
  refine ⟨fun name j k named => absurd named (bare.unnamed j name), ?_, fun s member => ?_⟩
  · exact (bare.length_eq.trans (List.length_map _)).trans_le spells.length_eq.le
  · obtain ⟨k, at_k⟩ := List.mem_iff_getElem?.1 member
    obtain ⟨t, at_t, said⟩ := form_of_dataSource alone at_k
    have inside : k < memorySize := spells.length_eq ▸ (List.getElem?_eq_some_iff.1 at_t).1
    obtain ⟨t', at_t', read⟩ := spells.word_eq k inside
    cases at_t.symm.trans at_t'
    exact permitted_data said read (digits k inside)

/-- A program of data that reads as the words of a memory has these words. -/
theorem assemble_dataSource (alone : ∀ t ∈ texts, StandsAlone t) (spells : Spells texts words)
    (options : Options) (fits : options.strict = true → words.ThreeDigits) :
    ∃ again, (assemble options (dataSource texts)).result = .ok again ∧ again.words = words := by
  have bare := bare_dataSource alone
  obtain ⟨again, assembled, lenient⟩ := bare.exists_assembled options fun strict =>
    acceptable_dataSource alone spells (fits strict)
  have length : (ofSource (dataSource texts)).length = memorySize := by
    rw [bare.length_eq, List.length_map, spells.length_eq]
  obtain ⟨-, written, -⟩ := imageOf_of_assemble (by rw [length]; decide) lenient
  refine ⟨again, assembled, Vector.ext fun k inside => ?_⟩
  have at_k := List.getElem?_eq_getElem (length.symm ▸ inside)
  obtain ⟨t, at_t, said⟩ := form_of_dataSource alone at_k
  obtain ⟨t', at_t', read⟩ := spells.word_eq k inside
  cases at_t.symm.trans at_t'
  exact comesTo_data bare.unnamed said read (written k inside _ at_k)

/-! ## The command -/

/-- The text that was written. -/
def Console.output (c : Console) : Text := c.lines.flatMap (· ++ ['\n'])

theorem respond_assemble {arguments : List Text} {path : Text} {settings : Settings} {c : Console}
    (asked : Request.ofArguments arguments = .ok (.perform .assemble path settings))
    (plain : settings.listing = false)
    (accepted : (assemble { strict := settings.strict, symbols := true } c.source).result =
      .ok object) (turns : Nat) :
    respond Console.terminal turns arguments c =
      (some .success, { c with lines := c.lines ++ imageLines object.words }) := by
  simp only [respond, asked, perform, performAssemble, Console.bind_apply, Console.map_apply,
    Console.load_apply, accepted, plain, Console.putLines_apply, Console.pure_apply]
  rfl

theorem spells_threeDigits (memory : Memory) :
    Spells (memory.toList.map Word.threeDigits) memory := by
  refine ⟨by simp, fun k inside => ⟨memory[k].threeDigits, ?_, Word.ofText?_threeDigits _⟩⟩
  simp [inside]

/-- What the command prints for a program that is accepted is cut at white space into tokens that
read as the words of the memory. As data, one a line, these tokens are a program with the same
words, in strict assembly too if that accepts the first program or all words have three digits. -/
theorem image_lossless {arguments : List Text} {path source : Text} {settings : Settings}
    (asked : Request.ofArguments arguments = .ok (.perform .assemble path settings))
    (plain : settings.listing = false)
    (accepted : (assemble { strict := settings.strict, symbols := true } source).result =
      .ok object) (turns : Nat) (stdin : Text) :
    ∃ after, respond Console.terminal turns arguments { source, pieces := inputsOfText stdin } =
        (some .success, after) ∧
      Spells (Text.tokens after.output) object.words ∧
      ∀ options : Options,
        (options.strict = true → settings.strict = true ∨ object.words.ThreeDigits) →
        ∃ again, (assemble options (dataSource (Text.tokens after.output))).result = .ok again ∧
          again.words = object.words := by
  refine ⟨_, respond_assemble asked plain accepted turns, ?_⟩
  have tokens : Text.tokens (Console.output
      { source, pieces := inputsOfText stdin, lines := [] ++ imageLines object.words }) =
      object.words.toList.map Word.threeDigits := tokens_imageLines object.words
  rw [tokens]
  have spells := spells_threeDigits object.words
  have alone : ∀ t ∈ object.words.toList.map Word.threeDigits, StandsAlone t := by
    intro t member
    obtain ⟨word, -, rfl⟩ := List.mem_map.1 member
    exact Decimal.standsAlone_padded 3 word.toInt
  refine ⟨spells, fun options fits => assemble_dataSource alone spells options fun strict => ?_⟩
  rcases fits strict with first | digits
  · rw [first] at accepted
    exact threeDigits_of_assemble accepted
  · exact digits

/-- Words that are negative, that have more than three digits, and the least of all. -/
def extremeSource : Text := "LDA 5\nDAT -7\nDAT 1000\nDAT -2147483648".toList

theorem image_lossless_extreme : ∃ object after,
    Request.ofArguments ["assemble".toList, "extreme.lmc".toList] =
      .ok (.perform .assemble "extreme.lmc".toList { path := some "extreme.lmc".toList }) ∧
    (assemble { symbols := true } extremeSource).result = .ok object ∧
    respond Console.terminal 0 ["assemble".toList, "extreme.lmc".toList]
      { source := extremeSource, pieces := inputsOfText [] } = (some .success, after) ∧
    Spells (Text.tokens after.output) object.words ∧
    ∃ again, (assemble {} (dataSource (Text.tokens after.output))).result = .ok again ∧
      again.words = object.words := by
  have asked : Request.ofArguments ["assemble".toList, "extreme.lmc".toList] =
      .ok (.perform .assemble "extreme.lmc".toList { path := some "extreme.lmc".toList }) := rfl
  have ok : (assemble { symbols := true } extremeSource).result.isOk = true := by decide +kernel
  cases accepted : (assemble { symbols := true } extremeSource).result with
  | error e =>
    rw [accepted] at ok
    cases ok
  | ok object =>
    obtain ⟨after, responded, spells, lossless⟩ := image_lossless asked rfl accepted 0 []
    exact ⟨object, after, asked, rfl, responded, spells, lossless {} (by simp)⟩

end CommandLine
end LittleMan
