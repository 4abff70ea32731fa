import LittleMan.Proofs.Source.Layout
import Mathlib.Computability.Language

/-!
# The rules that a source is read by

Four rules say how a piece of a source may be written: as a gap, a word, a comment or a newline. Where
several rules accept a start of what is left, the longest piece is taken, and of two rules that accept
the same piece the one with the higher priority reads it. Some rule always takes a piece
(`exists_takes`), and it is the only one (`Takes.unique`), so reading by the rules refuses no character
and gives the tokens of the source (`scans_iff`).
-/

namespace LittleMan.Source

open scoped Computability
open Text (byteLength)

/-- What a piece of a source may be written as. -/
inductive Rule where
  | gap | word | comment | newline
deriving DecidableEq, Repr

namespace Rule

/-- One character that satisfies `p`. -/
def one (p : Char → Bool) : Language Char := {t | ∃ c, p c = true ∧ t = [c]}

/-- The pieces that the rule accepts: gaps and words have one character or more, a comment has any
number of them behind its slashes. -/
def language : Rule → Language Char
  | gap => one isGap * (one isGap)∗
  | word => one isWordChar * (one isWordChar)∗
  | comment => {['/', '/']} * (one isLineChar)∗
  | newline => {['\n']}

/-- Of the rules that accept the same piece, the one with the highest priority reads it. A comment
is written as a word could be, and comes first. -/
def priority : Rule → Nat
  | gap | word | newline => 2
  | comment => 5

/-- The tokens of a piece that the rule reads at a byte. Gaps are passed over. A word is a token
whatever it says: it names an instruction or it does not. -/
def tokensOf (offset : Nat) (piece : Text) : Rule → List Token
  | gap => []
  | word => [.word ⟨piece, offset⟩]
  | comment => [.comment ⟨piece, offset⟩]
  | newline => [.newline offset]

/-- The rule reads the piece at the start of the text: none accepts a longer start of it, and none
with a higher priority accepts the same. -/
structure Takes (rule : Rule) (t piece : Text) : Prop where
  starts : piece <+: t
  accepts : piece ∈ rule.language
  longest : ∀ other longer, longer <+: t → longer ∈ language other → longer.length ≤ piece.length
  first : ∀ other, piece ∈ language other → priority other ≤ rule.priority

end Rule

/-- What reading by the rules gives of a text that starts at a byte: tokens, and the places of
characters where no rule accepts anything. -/
inductive Scans : Nat → Text → List (Except Span Token) → Prop where
  | done (offset : Nat) : Scans offset [] []
  | read {rule : Rule} {offset : Nat} {piece rest : Text} {items : List (Except Span Token)}
      (takes : rule.Takes (piece ++ rest) piece)
      (more : Scans (offset + byteLength piece) rest items) :
      Scans offset (piece ++ rest) ((rule.tokensOf offset piece).map .ok ++ items)
  | refuse {offset : Nat} {c : Char} {rest : Text} {items : List (Except Span Token)}
      (none : ∀ rule piece, piece <+: c :: rest → piece ∉ Rule.language rule)
      (more : Scans (offset + c.utf8Size) rest items) :
      Scans offset (c :: rest) (.error ⟨offset, offset + c.utf8Size⟩ :: items)

namespace Rule

variable {rule other : Rule} {t piece rest : Text} {c : Char} {p : Char → Bool}

/-! ## What the rules accept -/

theorem mem_star_iff : t ∈ (one p)∗ ↔ ∀ c ∈ t, p c = true := by
  rw [Language.mem_kstar]
  constructor
  · rintro ⟨pieces, rfl, each⟩ c member
    obtain ⟨piece, held, inside⟩ := List.mem_flatten.1 member
    obtain ⟨d, satisfies, rfl⟩ := each piece held
    obtain rfl := List.mem_singleton.1 inside
    exact satisfies
  · intro all
    refine ⟨t.map fun c => [c], ?_, ?_⟩
    · exact (List.flatMap_singleton' t).symm
    · intro piece member
      obtain ⟨c, held, rfl⟩ := List.mem_map.1 member
      exact ⟨c, all c held, rfl⟩

theorem mem_plus_iff : t ∈ one p * (one p)∗ ↔ t ≠ [] ∧ ∀ c ∈ t, p c = true := by
  rw [Language.mem_mul]
  constructor
  · rintro ⟨first, ⟨c, satisfies, rfl⟩, more, others, rfl⟩
    rw [mem_star_iff] at others
    exact ⟨List.cons_ne_nil _ _, List.forall_mem_cons.2 ⟨satisfies, others⟩⟩
  · rintro ⟨some, all⟩
    obtain ⟨c, more, rfl⟩ := List.exists_cons_of_ne_nil some
    rw [List.forall_mem_cons] at all
    exact ⟨[c], ⟨c, all.1, rfl⟩, more, mem_star_iff.2 all.2, rfl⟩

theorem mem_gap_iff : piece ∈ gap.language ↔ piece ≠ [] ∧ Blank piece := mem_plus_iff

theorem mem_word_iff : piece ∈ word.language ↔ piece ≠ [] ∧ ∀ c ∈ piece, isWordChar c = true :=
  mem_plus_iff

theorem mem_comment_iff : piece ∈ comment.language ↔
    opensComment piece = true ∧ ∀ c ∈ piece, isLineChar c = true := by
  rw [language, Language.mem_mul]
  constructor
  · rintro ⟨slashes, rfl, more, others, rfl⟩
    rw [mem_star_iff] at others
    refine ⟨by simp [opensComment], ?_⟩
    simpa [isLineChar] using others
  · rintro ⟨opens, all⟩
    obtain ⟨more, rfl⟩ := List.isPrefixOf_iff_prefix.1 opens
    refine ⟨['/', '/'], rfl, more, mem_star_iff.2 fun c held => ?_, rfl⟩
    exact all c (List.mem_append_right _ held)

theorem mem_newline_iff : piece ∈ newline.language ↔ piece = ['\n'] := Iff.rfl

/-- The characters that pieces of the rule are made of. -/
def admits : Rule → Char → Bool
  | gap => isGap
  | word => isWordChar
  | comment => isLineChar
  | newline => (· == '\n')

theorem admits_of_mem (accepts : piece ∈ rule.language) :
    piece ≠ [] ∧ ∀ c ∈ piece, rule.admits c = true := by
  cases rule with
  | gap => exact mem_gap_iff.1 accepts
  | word => exact mem_word_iff.1 accepts
  | comment =>
    obtain ⟨opens, all⟩ := mem_comment_iff.1 accepts
    refine ⟨?_, all⟩
    rintro rfl
    cases opens
  | newline =>
    obtain rfl := mem_newline_iff.1 accepts
    simp [admits]

/-- Two rules of the same priority admit no character in common. -/
theorem eq_of_admits (here : rule.admits c = true) (there : other.admits c = true)
    (same : rule.priority = other.priority) : rule = other := by
  have apart : isGap '\n' = false := by decide
  cases rule <;> cases other <;> simp_all [admits, priority, isWordChar]

/-! ## What is read -/

theorem prefix_takeWhile (starts : piece <+: t) (all : ∀ c ∈ piece, p c = true) :
    piece <+: t.takeWhile p := by
  obtain ⟨rest, rfl⟩ := starts
  rw [List.takeWhile_append_of_pos all]
  exact List.prefix_append _ _

/-- A rule takes no more than the characters that it admits. -/
theorem length_le_of_mem (starts : piece <+: t) (accepts : piece ∈ rule.language) :
    piece.length ≤ (t.takeWhile rule.admits).length :=
  (prefix_takeWhile starts (admits_of_mem accepts).2).length_le

theorem Takes.unique {piece' : Text} (takes : rule.Takes t piece) (takes' : other.Takes t piece') :
    rule = other ∧ piece = piece' := by
  have same : piece = piece' := by
    have short := takes'.longest rule piece takes.starts takes.accepts
    have long := takes.longest other piece' takes'.starts takes'.accepts
    exact (List.prefix_of_prefix_length_le takes.starts takes'.starts short).eq_of_length
      (Nat.le_antisymm short long)
  subst same
  obtain ⟨some, all⟩ := admits_of_mem takes.accepts
  obtain ⟨-, all'⟩ := admits_of_mem takes'.accepts
  obtain ⟨c, more, rfl⟩ := List.exists_cons_of_ne_nil some
  have equal : rule.priority = other.priority := by
    apply Nat.le_antisymm
    · exact takes'.first rule takes.accepts
    · exact takes.first other takes'.accepts
  exact ⟨eq_of_admits (all c List.mem_cons_self) (all' c List.mem_cons_self) equal, rfl⟩

/-- What a rule accepts at a place opens as a piece of that rule does. -/
theorem admits_head (starts : piece <+: c :: rest) (accepts : piece ∈ rule.language) :
    rule.admits c = true := by
  obtain ⟨some, all⟩ := admits_of_mem accepts
  obtain ⟨d, more, rfl⟩ := List.exists_cons_of_ne_nil some
  obtain ⟨after, same⟩ := starts
  obtain rfl : d = c := (List.cons.inj same).1
  exact all d List.mem_cons_self

theorem opensComment_of_mem (starts : piece <+: t) (accepts : piece ∈ comment.language) :
    opensComment t = true := by
  have opens := (mem_comment_iff.1 accepts).1
  rw [opensComment, List.isPrefixOf_iff_prefix] at opens ⊢
  exact opens.trans starts

/-- Where a rule is the only one to accept anything, it takes all that it accepts. -/
theorem takes_of_only (starts : piece <+: t) (accepts : piece ∈ rule.language)
    (most : ∀ longer, longer <+: t → longer ∈ rule.language → longer.length ≤ piece.length)
    (only : ∀ other longer, longer <+: t → longer ∈ language other → other = rule) :
    rule.Takes t piece := by
  refine ⟨starts, accepts, ?_, ?_⟩
  · intro other longer starts' accepts'
    obtain rfl := only other longer starts' accepts'
    exact most longer starts' accepts'
  · intro other accepts'
    rw [only other piece starts accepts']

theorem takes_newline (rest : Text) : newline.Takes ('\n' :: rest) ['\n'] := by
  refine takes_of_only ⟨rest, rfl⟩ rfl ?_ ?_
  · intro longer _ accepts
    rw [mem_newline_iff.1 accepts]
  · intro other longer starts accepts
    have first := admits_head starts accepts
    cases other with
    | newline => rfl
    | gap => cases first
    | word => cases first
    | comment => cases first

theorem takes_gap (isGap_c : isGap c = true) (rest : Text) :
    gap.Takes (c :: rest) ((c :: rest).takeWhile isGap) := by
  refine takes_of_only (List.takeWhile_prefix _) ?_ ?_ ?_
  · exact mem_gap_iff.2 ⟨by simp [isGap_c], blank_takeWhile _⟩
  · intro longer starts accepts
    exact length_le_of_mem starts accepts
  · intro other longer starts accepts
    have first := admits_head starts accepts
    cases other with
    | gap => rfl
    | word => simp [admits, isWordChar, isGap_c] at first
    | newline =>
      obtain rfl : c = '\n' := by simpa [admits] using first
      cases isGap_c
    | comment =>
      obtain ⟨more, same⟩ := opensComment_iff.1 (opensComment_of_mem starts accepts)
      obtain rfl : c = '/' := (List.cons.inj same).1
      cases isGap_c

theorem takes_comment (opens : opensComment (c :: rest) = true) :
    comment.Takes (c :: rest) ((c :: rest).takeWhile isLineChar) := by
  obtain ⟨more, same⟩ := opensComment_iff.1 opens
  obtain rfl : c = '/' := (List.cons.inj same).1
  refine ⟨List.takeWhile_prefix _, ?_, ?_, ?_⟩
  · refine mem_comment_iff.2 ⟨?_, fun d => List.all_eq_true.1 List.all_takeWhile d⟩
    rw [List.takeWhile_cons_of_pos (by decide), opensComment_takeWhile (by decide)]
    exact opens
  · -- A word may start where the comment does, but it goes no further than the line.
    intro other longer starts accepts
    have first := admits_head starts accepts
    obtain ⟨-, all⟩ := admits_of_mem accepts
    cases other with
    | gap => cases first
    | newline => cases first
    | comment => exact (prefix_takeWhile starts all).length_le
    | word =>
      refine (prefix_takeWhile starts fun d held => ?_).length_le
      have solid := all d held
      simp only [admits, isWordChar, Bool.and_eq_true] at solid
      exact solid.2
  · intro other _
    cases other <;> decide

theorem takes_word (solid : isWordChar c = true) (spoken : opensComment (c :: rest) = false) :
    word.Takes (c :: rest) ((c :: rest).takeWhile isWordChar) := by
  refine takes_of_only (List.takeWhile_prefix _) ?_ ?_ ?_
  · exact mem_word_iff.2 ⟨by simp [solid], fun d => List.all_eq_true.1 List.all_takeWhile d⟩
  · intro longer starts accepts
    exact length_le_of_mem starts accepts
  · intro other longer starts accepts
    have first := admits_head starts accepts
    cases other with
    | word => rfl
    | gap =>
      have gap : isGap c = true := first
      simp [isWordChar, gap] at solid
    | newline =>
      obtain rfl : c = '\n' := by simpa [admits] using first
      cases solid
    | comment =>
      rw [opensComment_of_mem starts accepts] at spoken
      cases spoken

end Rule

variable {t : Text} {items : List (Except Span Token)} {offset : Nat}

theorem tokensFrom_blank_append {gap : Text} (blank : Blank gap) (offset : Nat) (t : Text) :
    tokensFrom offset (gap ++ t) = tokensFrom (offset + byteLength gap) t := by
  induction gap generalizing offset with
  | nil => rfl
  | cons c gap ih =>
    rw [Blank, List.forall_mem_cons] at blank
    have other : c ≠ '\n' := by
      rintro rfl
      cases blank.1
    rw [List.cons_append, tokensFrom, if_neg other, if_pos blank.1, ih blank.2, byteLength,
      Nat.add_assoc]

/-- At every place some rule takes a piece, and the tokens go on behind it. -/
theorem exists_takes (offset : Nat) (c : Char) (rest : Text) : ∃ rule piece after,
    c :: rest = piece ++ after ∧ Rule.Takes rule (c :: rest) piece ∧
      tokensFrom offset (c :: rest) =
        rule.tokensOf offset piece ++ tokensFrom (offset + byteLength piece) after := by
  by_cases newline : c = '\n'
  · subst newline
    refine ⟨.newline, ['\n'], rest, rfl, Rule.takes_newline rest, ?_⟩
    rw [tokensFrom, if_pos rfl]
    rfl
  by_cases gap : isGap c = true
  · refine ⟨.gap, _, _, List.takeWhile_append_dropWhile.symm, Rule.takes_gap gap rest, ?_⟩
    rw [← tokensFrom_blank_append (blank_takeWhile _), List.takeWhile_append_dropWhile]
    rfl
  by_cases opens : opensComment (c :: rest) = true
  · refine ⟨.comment, _, _, List.takeWhile_append_dropWhile.symm, Rule.takes_comment opens, ?_⟩
    have onLine : isLineChar c = true := by simpa [isLineChar] using newline
    rw [tokensFrom, if_neg newline, if_neg gap, if_pos opens, List.takeWhile_cons_of_pos onLine,
      List.dropWhile_cons_of_pos onLine]
    rfl
  · have solid : isWordChar c = true := by simp [isWordChar, gap, newline]
    have spoken : opensComment (c :: rest) = false := by simpa using opens
    refine ⟨.word, _, _, List.takeWhile_append_dropWhile.symm, Rule.takes_word solid spoken, ?_⟩
    rw [tokensFrom, if_neg newline, if_neg gap, if_neg opens, List.takeWhile_cons_of_pos solid,
      List.dropWhile_cons_of_pos solid]
    rfl

theorem scans_tokensFrom (offset : Nat) (t : Text) :
    Scans offset t ((tokensFrom offset t).map .ok) := by
  induction long : t.length using Nat.strong_induction_on generalizing offset t with
  | _ n ih =>
    cases t with
    | nil =>
      rw [tokensFrom]
      exact .done offset
    | cons c rest =>
      obtain ⟨rule, piece, after, split, takes, said⟩ := exists_takes offset c rest
      have some := (Rule.admits_of_mem takes.accepts).1
      rw [said, List.map_append]
      rw [split] at takes long ⊢
      refine .read takes (ih after.length ?_ _ after rfl)
      rw [← long, List.length_append]
      have wide := List.length_pos_of_ne_nil some
      omega

/-- Reading by the rules refuses nothing, and gives the tokens. -/
theorem scans_iff : Scans offset t items ↔ items = (tokensFrom offset t).map .ok := by
  constructor
  · intro scans
    induction scans with
    | done offset => simp [tokensFrom]
    | @read rule offset piece rest items takes more ih =>
      have some := (Rule.admits_of_mem takes.accepts).1
      obtain ⟨c, others, rfl⟩ := List.exists_cons_of_ne_nil some
      obtain ⟨rule', piece', after, split, takes', said⟩ :=
        exists_takes offset c (others ++ rest)
      obtain ⟨rfl, rfl⟩ := takes.unique takes'
      have rest_eq : others ++ rest = others ++ after := (List.cons.inj split).2
      obtain rfl := List.append_cancel_left rest_eq
      rw [List.cons_append, said, ih, List.map_append]
    | @refuse offset c rest items none more ih =>
      obtain ⟨rule, piece, after, -, takes, -⟩ := exists_takes offset c rest
      exact absurd takes.accepts (none rule piece takes.starts)
  · rintro rfl
    exact scans_tokensFrom offset t

end LittleMan.Source
