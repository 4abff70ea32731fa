import LittleMan.Proofs.Machine.ThreeDigits
import Mathlib.Algebra.BigOperators.Group.List.Basic
import Mathlib.Data.Int.ModEq
import Mathlib.Data.List.Induction
import Mathlib.Data.List.Infix

/-!
# Sums in the accumulator

An addition or a subtraction fits its exact result into the accumulator, so in a series of them each
result is fitted before the next is worked out. Where the policy keeps residues, nothing is lost on
the way: it is as if the exact total were fitted, and the order makes no difference. Where the
policy keeps the nearest number of three digits, the accumulator holds the exact total as long as no
total on the way is longer (`sums_exact`).
-/

namespace LittleMan

/-- A word that is added to the accumulator, or taken away from it. -/
inductive Summand where
  | add (value : Word)
  | sub (value : Word)
deriving DecidableEq, Repr

namespace Summand

/-- By how much the accumulator grows in exact arithmetic. -/
def amount : Summand → Int
  | add value => value.toInt
  | sub value => -value.toInt

/-- What an accumulator and summands come to in exact arithmetic. -/
def total (acc : Word) (summands : List Summand) : Int :=
  acc.toInt + (summands.map amount).sum

/-- What an accumulator and summands come to when each result is fitted. -/
def fitted (policy : Policy) (acc : Word) (summands : List Summand) : Word :=
  summands.foldl (fun acc summand => policy.fit (acc.toInt + summand.amount)) acc

/-- What the accumulator holds after summands were added to it under a policy, by exact totals. -/
def Exact (acc : Word) (summands : List Summand) (last : Word) : Policy → Prop
  | .unchecked => last.toInt ≡ total acc summands [ZMOD 2 ^ 32]
  | .wrap => (0 ≤ last.toInt ∧ last.toInt ≤ 999) ∧ last.toInt ≡ total acc summands [ZMOD 1000]
  | .clamp => (-999 ≤ last.toInt ∧ last.toInt ≤ 999) ∧
      ((∀ before, before <+: summands → before ≠ [] →
          -999 ≤ total acc before ∧ total acc before ≤ 999) →
        last.toInt = total acc summands)

variable {summands order : List Summand}

/-! ## Totals -/

theorem total_nil (acc : Word) : total acc [] = acc.toInt := by simp [total]

theorem total_concat (acc : Word) (summands : List Summand) (summand : Summand) :
    total acc (summands ++ [summand]) = total acc summands + summand.amount := by
  simp [total, Int.add_assoc]

theorem total_of_perm {acc : Word} (same : order.Perm summands) :
    total acc order = total acc summands := by
  rw [total, total, (same.map amount).sum_eq]

theorem fitted_concat (policy : Policy) (acc : Word) (summands : List Summand)
    (summand : Summand) :
    fitted policy acc (summands ++ [summand]) =
      policy.fit ((fitted policy acc summands).toInt + summand.amount) := by
  simp [fitted]

end Summand

/-! ## Residues -/

/-- The number modulo which a policy keeps results, if it keeps residues. -/
def Policy.modulus? : Policy → Option Int
  | .unchecked => some (2 ^ 32)
  | .wrap => some 1000
  | .clamp => none

namespace Policy

variable {policy : Policy} {k n n' : Int}

theorem toInt_fit_wrap (n : Int) : (wrap.fit n).toInt = n % 1000 := by
  have low : 0 ≤ n % 1000 := Int.emod_nonneg n (by decide)
  have high : n % 1000 < 1000 := Int.emod_lt_of_pos n (by decide)
  rw [fit, Int32.toInt_ofInt_of_le (by omega) (by omega)]

/-- A number of three digits is fitted as it is. -/
theorem toInt_fit_clamp (low : -999 ≤ n) (high : n ≤ 999) : (clamp.fit n).toInt = n := by
  rw [fit, Int.min_eq_left high, Int.max_eq_right low,
    Int32.toInt_ofInt_of_le (by omega) (by omega)]

/-- A word holds the residue of what is fitted into it. -/
theorem fit_modEq (keeps : policy.modulus? = some k) (n : Int) :
    (policy.fit n).toInt ≡ n [ZMOD k] := by
  cases policy with
  | unchecked =>
    cases keeps
    rw [fit, Int32.toInt_ofInt]
    exact Int.bmod_emod
  | wrap =>
    cases keeps
    rw [toInt_fit_wrap]
    exact Int.mod_modEq n 1000
  | clamp => cases keeps

/-- Numbers with the same residue are fitted into the same word. -/
theorem fit_congr (keeps : policy.modulus? = some k) (same : n ≡ n' [ZMOD k]) :
    policy.fit n = policy.fit n' := by
  cases policy with
  | unchecked =>
    cases keeps
    apply Int32.toInt_inj.1
    rw [fit, fit, Int32.toInt_ofInt, Int32.toInt_ofInt]
    have residues : n % Int32.size = n' % Int32.size := same
    rw [← Int.emod_bmod n, ← Int.emod_bmod n', residues]
  | wrap =>
    cases keeps
    rw [fit, fit, show n % 1000 = n' % 1000 from same]
  | clamp => cases keeps

end Policy

/-! ## What a policy makes of a total -/

namespace Summand

variable {policy : Policy} {acc : Word} {summands order : List Summand} {k : Int}

/-- Where residues are kept, the accumulator has the residue of the total all the way. -/
theorem fitted_modEq (keeps : policy.modulus? = some k) (acc : Word)
    (summands : List Summand) :
    (fitted policy acc summands).toInt ≡ total acc summands [ZMOD k] := by
  induction summands using List.reverseRecOn with
  | nil =>
    rw [total_nil]
    rfl
  | append_singleton before summand ih =>
    rw [fitted_concat, total_concat]
    exact (Policy.fit_modEq keeps _).trans (ih.add_right summand.amount)

/-- Where residues are kept, it is enough to fit the total. -/
theorem fitted_eq_fit_total (keeps : policy.modulus? = some k) (some : summands ≠ []) :
    fitted policy acc summands = policy.fit (total acc summands) := by
  obtain ⟨before, summand, rfl⟩ := (List.eq_nil_or_concat' summands).resolve_left some
  rw [fitted_concat, total_concat]
  exact Policy.fit_congr keeps ((fitted_modEq keeps acc before).add_right summand.amount)

/-- Where the nearest number of three digits is kept, nothing is lost before a total is longer. -/
theorem toInt_fitted_clamp (short : ∀ before, before <+: summands → before ≠ [] →
    -999 ≤ total acc before ∧ total acc before ≤ 999) :
    (fitted .clamp acc summands).toInt = total acc summands := by
  induction summands using List.reverseRecOn with
  | nil => exact (total_nil acc).symm
  | append_singleton before summand ih =>
    have earlier := ih fun front within => short front (within.trans (List.prefix_append _ _))
    obtain ⟨low, high⟩ := short _ List.prefix_rfl (by simp)
    rw [total_concat] at low high ⊢
    rw [fitted_concat, earlier]
    exact Policy.toInt_fit_clamp low high

theorem threeDigits_fitted (bounded : policy.Bounded) (some : summands ≠ []) :
    (fitted policy acc summands).ThreeDigits := by
  obtain ⟨before, summand, rfl⟩ := (List.eq_nil_or_concat' summands).resolve_left some
  rw [fitted_concat]
  exact bounded.threeDigits_fit _

/-- What each policy makes of summands, by their exact totals. -/
theorem exact_fitted (policy : Policy) (acc : Word) (some : summands ≠ []) :
    Exact acc summands (fitted policy acc summands) policy := by
  cases policy with
  | unchecked => exact fitted_modEq rfl acc summands
  | wrap =>
    refine ⟨?_, fitted_modEq rfl acc summands⟩
    rw [fitted_eq_fit_total rfl some, Policy.toInt_fit_wrap]
    omega
  | clamp => exact ⟨threeDigits_fitted (.inr rfl) some, toInt_fitted_clamp⟩

end Summand

/-! ## Steps that add summands -/

/-- The summand that an instruction is, with the word that it finds in memory. -/
def Instruction.summand? (memory : Memory) : Instruction → Option Summand
  | .add a => some (.add (memory.get a))
  | .sub a => some (.sub (memory.get a))
  | _ => none

/-- The instruction that adds the summand, whose word is in a cell. -/
def Summand.instruction (a : Address) : Summand → Instruction
  | add _ => .add a
  | sub _ => .sub a

def Summand.value : Summand → Word
  | add value | sub value => value

theorem Summand.summand?_instruction {memory : Memory} {a : Address} {summand : Summand}
    (held : memory.get a = summand.value) :
    (summand.instruction a).summand? memory = some summand := by
  cases summand with
  | add value => exact congrArg (some ∘ Summand.add) held
  | sub value => exact congrArg (some ∘ Summand.sub) held

namespace Machine

variable {m next last : Machine} {flags : Flags} {e : Effect} {summand : Summand}
  {summands : List Summand} {policy : Policy} {i : Instruction}

/-- The summand that the machine is about to add, if its next instruction is one. -/
def summand? (m : Machine) : Option Summand :=
  if m.status = .fetching then
    (m.word?.bind Instruction.decode).bind (·.summand? m.memory)
  else none

/-- The machine adds the summands one after another, each by a step under the policy. In between it
may do, or be set to, anything that leaves the accumulator as it is, so the words may be any. -/
inductive Adds (policy : Policy) : Machine → List Summand → Machine → Prop
  | done (m : Machine) : Adds policy m [] m
  | meanwhile {m next last : Machine} {summands : List Summand} (same : next.acc = m.acc)
      (rest : Adds policy next summands last) : Adds policy m summands last
  | step {m next last : Machine} {flags : Flags} {e : Effect} {summand : Summand}
      {summands : List Summand} (chosen : flags.policy = policy)
      (asked : m.summand? = some summand) (taken : m.step flags = .ok (e, next))
      (rest : Adds policy next summands last) :
      Adds policy m (summand :: summands) last

theorem summand?_eq_some_iff : m.summand? = some summand ↔
    m.status = .fetching ∧ ∃ word i, m.word? = some word ∧ Instruction.decode word = some i ∧
      i.summand? m.memory = some summand := by
  rw [summand?]
  split
  next fetching =>
    simp only [Option.bind_eq_some_iff, fetching, true_and]
    constructor
    · rintro ⟨i, ⟨word, found, known⟩, asked⟩
      exact ⟨word, i, found, known, asked⟩
    · rintro ⟨word, i, found, known, asked⟩
      exact ⟨i, ⟨word, found, known⟩, asked⟩
  next other => simp [other]

/-- The exact result is fitted into the accumulator. -/
theorem execute_summand (asked : i.summand? m.memory = some summand) :
    (m.execute policy i).2.acc = policy.fit (m.acc.toInt + summand.amount) := by
  cases i with
  | add a =>
    cases asked
    rfl
  | sub a =>
    cases asked
    rw [Summand.amount, ← Int.sub_eq_add_neg]
    rfl
  | _ => cases asked

/-- A step that adds a summand fits the exact result into the accumulator. -/
theorem acc_of_summand (asked : m.summand? = some summand)
    (taken : m.step flags = .ok (e, next)) :
    next.acc = flags.policy.fit (m.acc.toInt + summand.amount) := by
  obtain ⟨fetching, word, i, found, known, added⟩ := summand?_eq_some_iff.1 asked
  cases step_ok_iff.1 taken with
  | idle halted => cases fetching.symm.trans halted
  | outside _ none => cases found.symm.trans none
  | skipped _ found' unknown =>
    cases found.symm.trans found'
    cases known.symm.trans unknown
  | executed _ found' known' =>
    cases found.symm.trans found'
    cases known.symm.trans known'
    rw [haltIfRanOff_acc]
    exact execute_summand added

theorem Adds.acc_eq (adds : Adds policy m summands last) :
    last.acc = Summand.fitted policy m.acc summands := by
  induction adds with
  | done m => rfl
  | meanwhile same rest ih => rw [ih, same]
  | step chosen asked taken rest ih =>
    rw [ih, acc_of_summand asked taken, chosen]
    rfl

/-! ## Every series of summands can be added -/

/-- The machine about to add a summand, with the instruction and the word in its first two cells. -/
def given (m : Machine) (summand : Summand) : Machine :=
  { m with
    memory := (m.memory.set 0 (summand.instruction ⟨1, by decide⟩).encode).set 1 summand.value
    pc := 0
    halted := false
    pending := false }

theorem summand?_given (m : Machine) (summand : Summand) :
    (m.given summand).summand? = some summand := by
  have found : (m.given summand).word? = some (summand.instruction ⟨1, by decide⟩).encode := by
    simp [given, word?]
  have held : (m.given summand).memory.get 1 = summand.value := Vector.getElem_set_self _
  exact summand?_eq_some_iff.2 ⟨rfl, _, _, found, Instruction.decode_encode _,
    Summand.summand?_instruction held⟩

theorem exists_adds (policy : Policy) (m : Machine) (summands : List Summand) :
    ∃ last, Adds policy m summands last := by
  induction summands generalizing m with
  | nil => exact ⟨m, .done m⟩
  | cons summand summands ih =>
    have asked := summand?_given m summand
    obtain ⟨fetching, word, i, found, known, -⟩ := summand?_eq_some_iff.1 asked
    obtain ⟨e, next, taken, -, -⟩ := exists_step { policy } fetching found known
    obtain ⟨last, rest⟩ := ih next
    have set : (m.given summand).acc = m.acc := rfl
    exact ⟨last, .meanwhile set (.step rfl asked taken rest)⟩

end Machine

open Machine Summand

/-- Every machine can be made to add any summands, and what is then in the accumulator depends on
the accumulator before, the summands and the policy alone. If the accumulator is not bounded, it
holds the word that is congruent to the exact total modulo 2^32; if results are kept modulo 1000,
the number from 0 to 999 that is congruent to the exact total. In both cases the summands may be
added in any order. If the nearest number of three digits is kept, the accumulator holds such a
number, and the exact total if no total on the way has more than three digits. -/
theorem sums_exact (policy : Policy) (m : Machine) (summands : List Summand)
    (some : summands ≠ []) :
    ∃ acc, (∃ last, Adds policy m summands last) ∧
      (∀ last, Adds policy m summands last → last.acc = acc) ∧
      Exact m.acc summands acc policy ∧
      (policy ≠ .clamp → ∀ order, order.Perm summands →
        ∀ last, Adds policy m order last → last.acc = acc) := by
  refine ⟨fitted policy m.acc summands, exists_adds policy m summands,
    fun last adds => adds.acc_eq, exact_fitted policy m.acc some, ?_⟩
  intro unbounded order same last adds
  obtain ⟨k, keeps⟩ : ∃ k, policy.modulus? = Option.some k := by
    cases policy with
    | unchecked => exact ⟨_, rfl⟩
    | wrap => exact ⟨_, rfl⟩
    | clamp => exact absurd rfl unbounded
  have someOrder : order ≠ [] := fun none => some (List.perm_nil.1 (none ▸ same.symm))
  rw [adds.acc_eq, fitted_eq_fit_total keeps someOrder, fitted_eq_fit_total keeps some,
    total_of_perm same]

/-- The smallest word is taken away, then the largest is added. -/
def extremes : List Summand := [.sub (-2147483648), .add 2147483647, .sub 3]

/-- No total on the way from 0 has more than three digits. -/
def shallow : List Summand := [.add 999, .sub 1998, .add 5]

theorem sums_exact_extremes :
    (∃ last last', Adds .wrap (.ofMemory .empty) extremes last ∧ last.acc.toInt = 292 ∧
      Adds .wrap (.ofMemory .empty) extremes.reverse last' ∧ last'.acc = last.acc) ∧
    ∃ last, Adds .clamp (.ofMemory .empty) shallow last ∧ last.acc.toInt = -994 := by
  constructor
  · obtain ⟨acc, ⟨last, adds⟩, only, ⟨range, residue⟩, anyOrder⟩ :=
      sums_exact .wrap (.ofMemory .empty) extremes (by decide)
    obtain ⟨last', adds'⟩ := exists_adds .wrap (.ofMemory .empty) extremes.reverse
    have same := anyOrder (by decide) extremes.reverse (List.reverse_perm _) last' adds'
    have sum : total 0 extremes = 4294967292 := by decide
    have remains : acc.toInt % 1000 = total 0 extremes % 1000 := residue
    refine ⟨last, last', adds, ?_, adds', ?_⟩
    · rw [only last adds]
      omega
    · rw [same, only last adds]
  · obtain ⟨acc, ⟨last, adds⟩, only, ⟨-, exactly⟩, -⟩ :=
      sums_exact .clamp (.ofMemory .empty) shallow (by decide)
    have short : ∀ before ∈ shallow.inits, before ≠ [] →
        -999 ≤ total 0 before ∧ total 0 before ≤ 999 := by decide
    have sum : total 0 shallow = -994 := by decide
    refine ⟨last, adds, ?_⟩
    rw [only last adds]
    exact (exactly fun before within => short before ((List.mem_inits _ _).2 within)).trans sum

end LittleMan
