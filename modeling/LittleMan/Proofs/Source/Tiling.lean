import LittleMan.Proofs.Source.Lines
import LittleMan.Proofs.Source.Rules
import Mathlib.Data.List.Pairwise
import Mathlib.Data.List.Sort

/-!
# The tokens of a source lie side by side

The tokens lie in the source where their spans say, in order and apart, each among what lets it stand
there, and every character outside them is a gap (`Tiles`). They are laid one behind another as they
are read (`Laid`), and everything that a tiling asks for is read off that. A source has one tiling
(`tiles_iff`).
-/

namespace LittleMan.Source

open Text (byteLength)

/-- What is written where the token stands. -/
def Token.text : Token → Text
  | .word lexeme => lexeme.text
  | .comment lexeme => lexeme.text
  | .newline _ => ['\n']

/-- A word could begin behind the text. -/
def LetsBegin (before : Text) : Prop := ∀ c ∈ before.getLast?, isGap c = true ∨ c = '\n'

/-- A word could end in front of the text. -/
def LetsEnd (after : Text) : Prop := ∀ c ∈ after.head?, isGap c = true ∨ c = '\n'

/-- A word holds no gap and no newline, opens no comment, and goes as far as it can to both sides. -/
structure FitsWord (before text after : Text) : Prop where
  alone : StandsAlone text
  begins : LetsBegin before
  ends : LetsEnd after

/-- A comment opens where a word could begin, and goes to the end of its line. -/
structure FitsComment (before text after : Text) : Prop where
  opens : opensComment text = true
  oneLine : '\n' ∉ text
  begins : LetsBegin before
  ends : ∀ c ∈ after.head?, c = '\n'

/-- What stands before and after the token lets it stand there. -/
def Token.Fits (before after : Text) : Token → Prop
  | .word lexeme => FitsWord before lexeme.text after
  | .comment lexeme => FitsComment before lexeme.text after
  | .newline _ => True

/-- The token is a piece of the source, it fits there, and its span is where the piece lies. -/
def Token.StandsIn (source : Text) (token : Token) : Prop :=
  ∃ before after, source = before ++ token.text ++ after ∧ token.Fits before after ∧
    token.span = ⟨byteLength before, byteLength (before ++ token.text)⟩

/-- The character that stands behind `before` lies within the token. -/
structure Token.Holds (before : Text) (c : Char) (token : Token) : Prop where
  starts : token.span.start ≤ byteLength before
  stops : byteLength (before ++ [c]) ≤ token.span.stop

/-- The tokens tile the source. -/
structure Tiles (source : Text) (tokens : List Token) : Prop where
  standsIn : ∀ token ∈ tokens, token.StandsIn source
  nonempty : ∀ token ∈ tokens, token.span.start < token.span.stop
  ordered : tokens.Pairwise fun earlier later => earlier.span.stop ≤ later.span.start
  /-- What lies before, between and after the tokens is nothing but gaps. -/
  gaps : ∀ before c after, source = before ++ c :: after →
    isGap c = true ∨ ∃ token ∈ tokens, token.Holds before c
  /-- The newlines among the tokens are those of the source. -/
  newlines : ∀ start, .newline start ∈ tokens ↔
    ∃ before after, source = before ++ '\n' :: after ∧ start = byteLength before

/-- Behind `front`, a text goes on with gaps and with these tokens, one after another. -/
inductive Laid : Text → Text → List Token → Prop where
  | done (front : Text) : Laid front [] []
  | gap {front rest : Text} {c : Char} {tokens : List Token} (isGap_c : isGap c = true)
      (more : Laid (front ++ [c]) rest tokens) : Laid front (c :: rest) tokens
  | token {front rest : Text} {tokens : List Token} (token : Token)
      (starts : token.span.start = byteLength front) (fits : token.Fits front rest)
      (more : Laid (front ++ token.text) rest tokens) :
      Laid front (token.text ++ rest) (token :: tokens)

variable {source front before after rest t u : Text} {ts us : List Token} {token other : Token}
  {c : Char}

/-! ## Tokens that fit -/

/-- A token ends behind what is written. -/
theorem Token.span_eq (starts : token.span.start = byteLength before) :
    token.span = ⟨byteLength before, byteLength (before ++ token.text)⟩ := by
  have stops : token.span.stop = token.span.start + byteLength token.text := by
    cases token with
    | word lexeme => rfl
    | comment lexeme => rfl
    | newline start => rfl
  rw [Text.byteLength_append, ← starts, ← stops]

theorem Token.Fits.text_ne_nil (fits : token.Fits before after) : token.text ≠ [] := by
  cases token with
  | word lexeme => exact fits.alone.shown
  | newline start => exact List.cons_ne_nil _ _
  | comment lexeme =>
    obtain ⟨more, same⟩ := opensComment_iff.1 fits.opens
    rw [Token.text, same]
    exact List.cons_ne_nil _ _

/-- No token begins with a gap. -/
theorem Token.Fits.not_isGap (fits : token.Fits before after) :
    ∀ c ∈ token.text.head?, isGap c = false := by
  intro c first
  cases token with
  | word lexeme => exact fits.alone.not_isGap c (List.mem_of_mem_head? first)
  | newline start =>
    cases first
    decide
  | comment lexeme =>
    obtain ⟨more, same⟩ := opensComment_iff.1 fits.opens
    rw [Token.text, same] at first
    cases first
    decide

/-- Only newlines have newlines in them. -/
theorem Token.Fits.eq_newline (fits : token.Fits before after) (member : '\n' ∈ token.text) :
    token = .newline token.span.start := by
  cases token with
  | word lexeme => exact absurd member fits.alone.newline_not_mem
  | comment lexeme => exact absurd member fits.oneLine
  | newline start => rfl

/-! ## Cuts -/

/-- Of two starts of a text, the longer begins with the shorter. -/
theorem exists_eq_append_of_le {t' u' : Text} (same : t ++ u = t' ++ u')
    (le : byteLength t ≤ byteLength t') : ∃ more, t' = t ++ more := by
  rcases List.append_eq_append_iff.1 same with ⟨more, rfl, -⟩ | ⟨more, rfl, -⟩
  · exact ⟨more, rfl⟩
  · rw [Text.byteLength_append] at le
    obtain rfl := eq_nil_of_byteLength (t := more) (by omega)
    exact ⟨[], by simp⟩

/-- A start of a text holds a character as a whole or not at all. -/
theorem byteLength_le_or_le (same : t ++ u = before ++ c :: after) :
    byteLength (before ++ [c]) ≤ byteLength t ∨ byteLength t ≤ byteLength before := by
  rcases List.append_eq_append_iff.1 same with ⟨more, rfl, -⟩ | ⟨more, rfl, rest⟩
  · right
    rw [Text.byteLength_append]
    exact Nat.le_add_right _ _
  · cases more with
    | nil =>
      right
      simp
    | cons d more =>
      left
      obtain rfl : c = d := (List.cons.inj rest).1
      simp [Text.byteLength_append, byteLength]

/-- A character within the span of a piece is one of its characters, at that place. -/
theorem exists_eq_append_of_within {piece before' after' : Text}
    (split : before' ++ piece ++ after' = before ++ c :: after)
    (low : byteLength before' ≤ byteLength before)
    (high : byteLength (before ++ [c]) ≤ byteLength (before' ++ piece)) :
    ∃ left right, piece = left ++ c :: right ∧ before = before' ++ left := by
  have split' : before' ++ (piece ++ after') = before ++ (c :: after) := by simpa using split
  obtain ⟨left, rfl⟩ := exists_eq_append_of_le split' low
  have upTo : (before' ++ left ++ [c]) ++ after = (before' ++ piece) ++ after' := by
    simpa using split.symm
  obtain ⟨right, same⟩ := exists_eq_append_of_le upTo high
  refine ⟨left, right, ?_, rfl⟩
  simpa using same

/-! ## What follows from the layout -/

theorem Laid.start_le (laid : Laid front t ts) (member : token ∈ ts) :
    byteLength front ≤ token.span.start := by
  induction laid with
  | done front => cases member
  | gap isGap_c more ih =>
    have behind := ih member
    rw [Text.byteLength_append] at behind
    omega
  | token first starts fits more ih =>
    rcases List.mem_cons.1 member with rfl | later
    · rw [starts]
    · have behind := ih later
      rw [Text.byteLength_append] at behind
      omega

theorem Laid.standsIn (laid : Laid front t ts) (member : token ∈ ts) :
    token.StandsIn (front ++ t) := by
  induction laid with
  | done front => cases member
  | gap isGap_c more ih =>
    have stands := ih member
    rwa [List.append_assoc] at stands
  | @token front rest ts first starts fits more ih =>
    rcases List.mem_cons.1 member with rfl | later
    · exact ⟨front, rest, (List.append_assoc _ _ _).symm, fits, Token.span_eq starts⟩
    · have stands := ih later
      rwa [List.append_assoc] at stands

theorem Laid.ordered (laid : Laid front t ts) :
    ts.Pairwise fun earlier later => earlier.span.stop ≤ later.span.start := by
  induction laid with
  | done front => exact .nil
  | gap isGap_c more ih => exact ih
  | token first starts fits more ih =>
    refine .cons (fun later member => ?_) ih
    rw [Token.span_eq starts]
    exact more.start_le member

/-- A character behind `front` is a gap, or lies in a token. -/
theorem Laid.covers (laid : Laid front t ts) (split : front ++ t = before ++ c :: after)
    (behind : byteLength front ≤ byteLength before) :
    isGap c = true ∨ ∃ token ∈ ts, token.Holds before c := by
  induction laid with
  | done front =>
    obtain ⟨more, rfl⟩ := exists_eq_append_of_le split behind
    simp at split
  | @gap front rest d ts isGap_d more ih =>
    have split' : (front ++ [d]) ++ rest = before ++ c :: after := by simpa using split
    rcases byteLength_le_or_le split' with within | beyond
    · -- The character is the gap itself.
      obtain ⟨between, rfl⟩ := exists_eq_append_of_le split behind
      rw [List.append_assoc, List.append_cancel_left_eq] at split
      cases between with
      | nil =>
        obtain rfl : d = c := (List.cons.inj split).1
        exact .inl isGap_d
      | cons e between =>
        obtain rfl : d = e := (List.cons.inj split).1
        have wide := c.utf8Size_pos
        simp only [Text.byteLength_append, byteLength] at within
        omega
    · exact ih split' beyond
  | @token front rest ts first starts fits more ih =>
    have split' : (front ++ first.text) ++ rest = before ++ c :: after := by simpa using split
    rcases byteLength_le_or_le split' with within | beyond
    · rw [← starts] at behind
      refine .inr ⟨first, List.mem_cons_self, behind, ?_⟩
      rwa [Token.span_eq starts]
    · rcases ih split' beyond with gap | ⟨token, member, holds⟩
      · exact .inl gap
      · exact .inr ⟨token, List.mem_cons_of_mem first member, holds⟩

/-- The newlines of a source are tokens if every character is a gap or lies in a token that fits. -/
theorem newline_mem_iff (standsIn : ∀ token ∈ ts, token.StandsIn source)
    (gaps : ∀ before c after, source = before ++ c :: after →
      isGap c = true ∨ ∃ token ∈ ts, token.Holds before c) (start : Nat) :
    .newline start ∈ ts ↔
      ∃ before after, source = before ++ '\n' :: after ∧ start = byteLength before := by
  constructor
  · intro member
    obtain ⟨before, after, split, -, place⟩ := standsIn _ member
    refine ⟨before, after, ?_, congrArg Span.start place⟩
    simpa [Token.text] using split
  · rintro ⟨before, after, split, rfl⟩
    rcases gaps before '\n' after split with gap | ⟨token, member, low, high⟩
    · cases gap
    obtain ⟨before', after', split', fits, place⟩ := standsIn token member
    rw [place] at low high
    obtain ⟨left, right, held, rfl⟩ :=
      exists_eq_append_of_within (split'.symm.trans split) low high
    have same := fits.eq_newline (by simp [held])
    rw [same] at held
    obtain rfl : left = [] := by
      cases left with
      | nil => rfl
      | cons d left => simp [Token.text] at held
    rw [place] at same
    rw [List.append_nil, ← same]
    exact member

theorem tiles_of_laid (laid : Laid [] source ts) : Tiles source ts := by
  have standsIn : ∀ token ∈ ts, token.StandsIn source := fun token => laid.standsIn
  have gaps : ∀ before c after, source = before ++ c :: after →
      isGap c = true ∨ ∃ token ∈ ts, token.Holds before c := by
    intro before c after split
    exact laid.covers split (Nat.zero_le _)
  refine ⟨standsIn, ?_, laid.ordered, gaps, newline_mem_iff standsIn gaps⟩
  intro token member
  obtain ⟨before, after, -, fits, place⟩ := standsIn token member
  have wide : byteLength token.text ≠ 0 := fun empty =>
    fits.text_ne_nil (eq_nil_of_byteLength empty)
  rw [place, Text.byteLength_append]
  exact Nat.lt_add_of_pos_right (Nat.pos_of_ne_zero wide)

/-! ## The tokens of a source -/

theorem isWordChar_eq_false_iff : isWordChar c = false ↔ isGap c = true ∨ c = '\n' := by
  rw [isWordChar, Bool.and_eq_false_iff, Bool.not_eq_false', bne_eq_false_iff_eq]

/-- A comment goes on to the end of its line. -/
theorem fitsComment_takeWhile (opens : opensComment (c :: rest) = true) (newline : c ≠ '\n')
    (begins : LetsBegin front) :
    FitsComment front (c :: rest.takeWhile isLineChar) (rest.dropWhile isLineChar) := by
  refine ⟨?_, newline_not_mem_cons_takeWhile newline rfl, begins, ?_⟩
  · exact (opensComment_takeWhile rfl).trans opens
  · intro d head
    simpa [isLineChar] using Text.head?_dropWhile isLineChar rest d head

/-- A word goes on to the next gap or newline. -/
theorem fitsWord_takeWhile (solid : isWordChar c = true) (spoken : opensComment (c :: rest) = false)
    (begins : LetsBegin front) :
    FitsWord front (c :: rest.takeWhile isWordChar) (rest.dropWhile isWordChar) := by
  refine ⟨⟨List.cons_ne_nil _ _, ?_, ?_⟩, begins, ?_⟩
  · refine List.forall_mem_cons.2 ⟨solid, fun d taken => ?_⟩
    exact List.all_eq_true.1 List.all_takeWhile d taken
  · exact (opensComment_takeWhile rfl).trans spoken
  · intro d head
    exact isWordChar_eq_false_iff.1 (Text.head?_dropWhile isWordChar rest d head)

/-- Tokens are laid as they are read, from a place where a word could begin or none can go on. -/
theorem laid_tokensFrom (front t : Text) (ready : LetsBegin front ∨ LetsEnd t) :
    Laid front t (tokensFrom (byteLength front) t) := by
  generalize place : byteLength front = offset
  fun_induction tokensFrom offset t generalizing front with
  | case1 offset => exact .done front
  | case2 offset rest ih =>
    refine .token (.newline offset) place.symm trivial (ih (front ++ ['\n']) (.inl ?_) ?_)
    · simp [LetsBegin]
    · have size : '\n'.utf8Size = 1 := by decide
      simp [Text.byteLength_append, byteLength, place, size]
  | case3 offset c rest newline gap ih =>
    refine .gap gap (ih (front ++ [c]) (.inl ?_) ?_)
    · simp [LetsBegin, gap]
    · simp [Text.byteLength_append, byteLength, place]
  | case4 offset c rest newline gap opens written ih =>
    have begins : LetsBegin front :=
      ready.resolve_right fun ends => (ends c rfl).elim gap newline
    have fits := fitsComment_takeWhile opens newline begins
    have split : c :: rest = written ++ rest.dropWhile isLineChar := by
      simp [written, List.takeWhile_append_dropWhile]
    rw [split]
    refine .token (.comment ⟨written, offset⟩) place.symm fits (ih (front ++ written) (.inr ?_) ?_)
    · intro d head
      exact .inr (fits.ends d head)
    · rw [Text.byteLength_append, place]
  | case5 offset c rest newline gap spoken written ih =>
    have begins : LetsBegin front :=
      ready.resolve_right fun ends => (ends c rfl).elim gap newline
    have solid : isWordChar c = true := by simp [isWordChar, gap, newline]
    have fits := fitsWord_takeWhile solid (by simpa using spoken) begins
    have split : c :: rest = written ++ rest.dropWhile isWordChar := by
      simp [written, List.takeWhile_append_dropWhile]
    rw [split]
    refine .token (.word ⟨written, offset⟩) place.symm fits
      (ih (front ++ written) (.inr fits.ends) ?_)
    rw [Text.byteLength_append, place]

theorem tiles_tokens (source : Text) : Tiles source (tokens source) :=
  tiles_of_laid (laid_tokensFrom [] source (.inl (by simp [LetsBegin])))

/-! ## One tiling for a source -/

/-- A token that fits is the one that is read there. -/
theorem tokensFrom_of_fits (fits : token.Fits before after) :
    tokensFrom token.span.start (token.text ++ after) =
      token :: tokensFrom token.span.stop after := by
  cases token with
  | newline start =>
    rw [Token.text, List.singleton_append, tokensFrom, if_pos rfl]
    rfl
  | comment lexeme =>
    obtain ⟨text, start⟩ := lexeme
    obtain ⟨opens, oneLine, -, ends⟩ := fits
    obtain ⟨more, rfl⟩ := opensComment_iff.1 opens
    have inside : ∀ d ∈ '/' :: more, isLineChar d = true := by
      intro d held
      have other : d ≠ '\n' := by
        rintro rfl
        exact oneLine (List.mem_cons_of_mem _ held)
      simpa [isLineChar] using other
    obtain ⟨taken, left⟩ := Text.takeWhile_append_of_stops inside fun d head => by
      simpa [isLineChar] using ends d head
    have opens' : opensComment ('/' :: ('/' :: more ++ after)) = true :=
      opensComment_iff.2 ⟨more ++ after, rfl⟩
    rw [Token.text, List.cons_append, tokensFrom, if_neg (by decide), if_neg (by decide),
      if_pos opens', taken, left]
    rfl
  | word lexeme =>
    obtain ⟨text, start⟩ := lexeme
    obtain ⟨alone, -, ends⟩ := fits
    obtain ⟨c, more, rfl⟩ := List.exists_cons_of_ne_nil alone.shown
    have solid := alone.solid
    rw [List.forall_mem_cons] at solid
    obtain ⟨taken, left⟩ := Text.takeWhile_append_of_stops solid.2 fun d head =>
      isWordChar_eq_false_iff.2 (ends d head)
    have first : ¬(isGap c = true ∨ c = '\n') := by simp [← isWordChar_eq_false_iff, solid.1]
    rw [not_or] at first
    have spoken : ¬opensComment (c :: (more ++ after)) = true := by
      rw [← opensComment_takeWhile (p := isWordChar) rfl, taken, alone.spoken]
      decide
    rw [Token.text, List.cons_append, tokensFrom, if_neg first.2, if_neg first.1, if_neg spoken,
      taken, left]
    rfl

/-- Tokens of a tiling that are not the same lie apart. -/
theorem Tiles.apart (tiles : Tiles source ts) (member : token ∈ ts) (member' : other ∈ ts)
    (differ : token ≠ other) :
    token.span.stop ≤ other.span.start ∨ other.span.stop ≤ token.span.start := by
  have apart : ts.Pairwise fun a b => a.span.stop ≤ b.span.start ∨ b.span.stop ≤ a.span.start :=
    tiles.ordered.imp .inl
  have symmetric : Std.Symm fun a b : Token =>
      a.span.stop ≤ b.span.start ∨ b.span.stop ≤ a.span.start := ⟨fun _ _ => Or.symm⟩
  exact apart.forall member member' differ

theorem Tiles.increasing (tiles : Tiles source ts) :
    ts.Pairwise fun earlier later => earlier.span.start < later.span.start := by
  refine tiles.ordered.imp_of_mem ?_
  intro earlier later member _ le
  exact Nat.lt_of_lt_of_le (tiles.nonempty earlier member) le

/-- Two tilings of a source have the same tokens. -/
theorem Tiles.mem_of_mem (tiles : Tiles source ts) (tiles' : Tiles source us)
    (member : token ∈ ts) : token ∈ us := by
  induction reached : token.span.start using Nat.strong_induction_on
    generalizing ts us token with
  | _ start ih =>
    obtain ⟨before, after, split, fits, place⟩ := tiles.standsIn token member
    obtain ⟨c, more, text⟩ := List.exists_cons_of_ne_nil fits.text_ne_nil
    have starts : token.span.start = byteLength before := congrArg Span.start place
    have solid : isGap c = false := fits.not_isGap c (by rw [text]; rfl)
    rcases tiles'.gaps before c (more ++ after) (by simp [split, text]) with
      gap | ⟨other, member', low, high⟩
    · rw [solid] at gap
      cases gap
    obtain ⟨before', after', split', fits', place'⟩ := tiles'.standsIn other member'
    have starts' : other.span.start = byteLength before' := congrArg Span.start place'
    rcases Nat.lt_or_eq_of_le low with earlier | same
    · -- A token of the other tiling that starts earlier is one of this too, and does not reach here.
      have also : other ∈ ts := ih other.span.start (by omega) tiles' tiles member' rfl
      have wide := tiles.nonempty token member
      rw [Text.byteLength_append] at high
      have size := c.utf8Size_pos
      simp only [byteLength] at high
      have differ : other ≠ token := by
        rintro rfl
        omega
      rcases tiles.apart also member differ with precedes | follows
      · omega
      · omega
    · -- Both are what is read here.
      rw [starts'] at same
      rw [split, List.append_assoc, List.append_assoc] at split'
      obtain ⟨rfl, rest⟩ := append_inj_of_byteLength split' same.symm
      have read := tokensFrom_of_fits fits
      rw [rest, starts, ← starts', tokensFrom_of_fits fits'] at read
      rw [← (List.cons.inj read).1]
      exact member'

/-- The tokens of a source are its only tiling. -/
theorem tiles_iff : Tiles source ts ↔ ts = tokens source := by
  constructor
  · intro tiles
    have tiles' := tiles_tokens source
    have irreflexive : Std.Irrefl fun a b : Token => a.span.start < b.span.start :=
      ⟨fun _ => Nat.lt_irrefl _⟩
    have antisymmetric : Std.Antisymm fun a b : Token => a.span.start < b.span.start :=
      ⟨fun _ _ before after => absurd before (Nat.lt_asymm after)⟩
    refine tiles.increasing.eq_of_mem_iff tiles'.increasing fun token => ?_
    exact ⟨tiles.mem_of_mem tiles', tiles'.mem_of_mem tiles⟩
  · rintro rfl
    exact tiles_tokens source

/-- Reading a source by the rules gives its tokens and refuses nothing, and the tokens tile it. -/
theorem tokens_tile (source : Text) :
    (∀ items, Scans 0 source items ↔ items = (tokens source).map .ok) ∧
    Tiles source (tokens source) :=
  ⟨fun _ => scans_iff, tiles_tokens source⟩

/-- Slashes inside a word belong to it, and a carriage return to the comment that it ends. -/
example : tokens "x/ ///y\r\nz//".toList =
    [.word ⟨"x/".toList, 0⟩, .comment ⟨"///y\r".toList, 3⟩, .newline 8, .word ⟨"z//".toList, 9⟩] := by
  cbv

end LittleMan.Source
