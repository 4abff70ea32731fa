import LittleMan.Device.Buffer
import LittleMan.Proofs.Session.Rounds

/-!
# Limited runs

A run that is allowed a number of instructions always ends (`exists_ends_limited`). Where it stops,
another run takes it up: two runs in a row come to what one run comes to that is allowed as many
instructions as the two together (`limited_add`). This is proved turn by turn. The long run
follows the first run, with more of its limit left, and then the second run, with as much left.
-/

namespace LittleMan

/-- A buffer that gives no input does not change by being read. -/
theorem Buffer.eq_of_read_none {queue : Buffer} (none : queue.read.1 = none) :
    queue.read.2 = queue := by
  unfold Buffer.read at none ⊢
  split
  next => rfl
  next free =>
    rw [if_neg free] at none
    split at none
    next => rfl
    next => cases none

namespace Session

variable {m : Type → Type} [Monad m] {σ : Type} {x : Surroundings m σ} {io : Bool}
  {a b c limit set now : UInt64} {f g first s s' t mid last : Session} {w w' w₁ : σ}
  {result : Except Fault Unit} {extra : Nat}

/-! ## What is left of a limit -/

/-- How many instructions are left of a limit that was set at one count, when the count is another.
Counts wrap. -/
def allowance (limit set now : UInt64) : Nat := limit.toNat - (now - set).toNat

@[simp] theorem allowance_self : allowance limit now now = limit.toNat := by
  simp [allowance]

theorem allowance_pos : 0 < allowance limit set now ↔ now - set < limit := by
  rw [UInt64.lt_iff_toNat_lt]
  exact Nat.sub_pos_iff_lt

theorem allowance_succ (left : 0 < allowance limit set now) :
    allowance limit set (now + 1) + 1 = allowance limit set now := by
  have below := UInt64.lt_iff_toNat_lt.1 (allowance_pos.1 left)
  have small := limit.toNat_lt
  have moved : now + 1 - set = now - set + 1 := by grind
  have count : (now + 1 - set).toNat = (now - set).toNat + 1 := by
    have one : (1 : UInt64).toNat = 1 := rfl
    rw [moved, UInt64.toNat_add, one]
    omega
  unfold allowance
  omega

@[simp] theorem goesOn_limited : (x.limited limit first).goesOn s w =
    decide (0 < allowance limit first.executed s.executed) := by
  simp [allowance_pos, Surroundings.limited]

/-! ## Runs that are allowed as much come to the same -/

/-- Two sessions agree but for what happened to the cells, and for why they paused if it was neither
at a halt nor at a breakpoint. -/
structure Agree (s t : Session) : Prop where
  machine : s.machine = t.machine
  output : s.output = t.output
  executed : s.executed = t.executed
  lastFetched : s.lastFetched = t.lastFetched
  flags : s.flags = t.flags
  breakpoints : s.breakpoints = t.breakpoints
  haltedLast : s.haltedLast = t.haltedLast
  brokeLast : s.brokeLast = t.brokeLast

namespace Agree

theorem refl (s : Session) : s.Agree s := ⟨rfl, rfl, rfl, rfl, rfl, rfl, rfl, rfl⟩

/-- They are at the same address. -/
theorem currentAddress (agree : s.Agree t) : s.currentAddress = t.currentAddress := by
  simp [Session.currentAddress, agree.lastFetched, agree.machine]

theorem paused (agree : s.Agree t) (pause : Pause) :
    Agree { s with pause } { t with pause } :=
  { agree with haltedLast := rfl, brokeLast := rfl }

theorem afterStep (agree : s.Agree t) (e : Effect) (next : Machine) :
    (s.afterStep e next).Agree (t.afterStep e next) where
  machine := rfl
  output := by simp [Session.afterStep, agree.output]
  executed := by simp [Session.afterStep, agree.executed]
  lastFetched := by simp [Session.afterStep, agree.lastFetched]
  flags := agree.flags
  breakpoints := agree.breakpoints
  haltedLast := agree.haltedLast
  brokeLast := agree.brokeLast

theorem atBreakpoint (agree : s.Agree t) (e : Effect) (next : Machine) :
    (s.afterStep e next).atBreakpoint e = (t.afterStep e next).atBreakpoint e := by
  simp [Session.atBreakpoint, Session.afterStep, agree.breakpoints]

theorem supplied (agree : s.Agree t) (next : Machine) :
    Agree { s with machine := next }.start { t with machine := next }.start :=
  { agree with machine := rfl, haltedLast := rfl, brokeLast := rfl }

end Agree

/-- A turn that does not end a run is taken as well where as much is left of the limit or more, and
as much more is left after it. -/
theorem Taken.agree_more (agree : s.Agree t)
    (ahead : allowance c g.executed t.executed = allowance a f.executed s.executed + extra)
    (taken : Taken (x.limited a f) io s w (.more s') w') :
    ∃ t', Taken (x.limited c g) io t w (.more t') w' ∧ s'.Agree t' ∧
      allowance c g.executed t'.executed = allowance a f.executed s'.executed + extra := by
  cases taken with
  | @stepped e next status yes taken goesOn =>
    have left : 0 < allowance a f.executed s.executed := by simpa using yes
    have more : 0 < allowance c g.executed t.executed := ahead ▸ Nat.add_pos_left left extra
    rw [agree.machine] at status
    rw [agree.machine, agree.flags] at taken
    rw [agree.atBreakpoint] at goesOn
    refine ⟨t.afterStep e next, .stepped status (by simpa using more) taken goesOn,
      agree.afterStep e next, ?_⟩
    cases fetched : e.fetched with
    | none => simpa [Session.afterStep, fetched] using ahead
    | some address =>
      have here := allowance_succ left
      have there := allowance_succ more
      simp only [Session.afterStep, fetched, Option.isSome_some, if_true]
      omega
  | @supplied w₁ piece next status withDevice yes asked read accepted =>
    have left : 0 < allowance a f.executed s.executed := by simpa using yes
    have more : 0 < allowance c g.executed t.executed := ahead ▸ Nat.add_pos_left left extra
    rw [agree.machine] at status
    rw [agree.machine, agree.flags] at accepted
    have yes : (x.limited c g).goesOn { t with pause := .awaitingInput } w = true := by
      simpa using more
    exact ⟨_, .supplied status withDevice yes asked read accepted, agree.supplied next, ahead⟩

/-- A turn that ends a run is taken as well where as much is left of the limit. -/
theorem Taken.agree_ended (agree : s.Agree t)
    (same : allowance c g.executed t.executed = allowance a f.executed s.executed)
    (taken : Taken (x.limited a f) io s w (.ended (result, last)) w') :
    ∃ last', Taken (x.limited c g) io t w (.ended (result, last')) w' ∧ last.Agree last' := by
  have goesOn (pause pause' : Pause) : (x.limited c g).goesOn { t with pause } w =
      (x.limited a f).goesOn { s with pause := pause' } w := by
    simp [same]
  cases taken with
  | halted status =>
    rw [agree.machine] at status
    exact ⟨_, .halted status, agree.paused _⟩
  | waiting status alone =>
    rw [agree.machine] at status
    exact ⟨_, .waiting status alone, agree.paused _⟩
  | stopped status no =>
    rw [agree.machine] at status
    exact ⟨_, .stopped status ((goesOn _ _).trans no), agree.paused _⟩
  | faulted status yes refused =>
    rw [agree.machine] at status
    rw [agree.machine, agree.flags] at refused
    refine ⟨_, .faulted status ((goesOn _ _).trans yes) refused, { agree with lastFetched := ?_ }⟩
    rw [agree.machine]
  | @broken e next status yes taken atBreak =>
    rw [agree.machine] at status
    rw [agree.machine, agree.flags] at taken
    rw [agree.atBreakpoint] at atBreak
    exact ⟨_, .broken status ((goesOn _ _).trans yes) taken atBreak,
      (agree.afterStep e next).paused _⟩
  | unasked status withDevice no =>
    rw [agree.machine] at status
    exact ⟨_, .unasked status withDevice ((goesOn _ _).trans no), agree.paused _⟩
  | starved status withDevice yes asked empty =>
    rw [agree.machine] at status
    exact ⟨_, .starved status withDevice ((goesOn _ _).trans yes) asked empty, agree.paused _⟩
  | rejected status withDevice yes asked read refused =>
    rw [agree.machine] at status
    rw [agree.machine, agree.flags] at refused
    exact ⟨_, .rejected status withDevice ((goesOn _ _).trans yes) asked read refused,
      agree.paused _⟩

/-- Runs from sessions that agree come to sessions that agree, if as much is left of their limits. -/
theorem Ends.agree (ended : Ends (x.limited a f) io s w (result, last) w') (agree : s.Agree t)
    (same : allowance c g.executed t.executed = allowance a f.executed s.executed) :
    ∃ last', Ends (x.limited c g) io t w (result, last') w' ∧ last.Agree last' := by
  refine run_induction (motive := fun s w => ∀ t, s.Agree t →
    allowance c g.executed t.executed = allowance a f.executed s.executed →
    ∃ last', Ends (x.limited c g) io t w (result, last') w' ∧ last.Agree last')
    ?_ ?_ ended t agree same
  · intro s w taken t agree same
    obtain ⟨last', taken', agree'⟩ := taken.agree_ended agree same
    exact ⟨last', .last taken', agree'⟩
  · intro s w s₁ w₁ taken rest t agree same
    obtain ⟨t₁, taken', agree₁, same₁⟩ := taken.agree_more agree (same.trans (Nat.add_zero _).symm)
    obtain ⟨last', ended', agree'⟩ := rest t₁ agree₁ same₁
    exact ⟨last', .earlier taken' ended', agree'⟩

/-! ## Limited runs end -/

/-- A bound of the turns that a run takes before its last one. -/
def turnsLeft (limit : UInt64) (first s : Session) : Nat :=
  match s.machine.status with
  | .halted => 0
  | .fetching => 2 * allowance limit first.executed s.executed + 1
  | .awaitingInput => 2 * allowance limit first.executed s.executed + 2

theorem turnsLeft_le (limit : UInt64) (first s : Session) :
    turnsLeft limit first s ≤ 2 * allowance limit first.executed s.executed + 2 := by
  unfold turnsLeft
  split <;> omega

theorem turnsLeft_lt (taken : Taken (x.limited limit first) io s w (.more s') w') :
    turnsLeft limit first s' < turnsLeft limit first s := by
  cases taken with
  | @stepped e next status yes taken goesOn =>
    have left : 0 < allowance limit first.executed s.executed := by simpa using yes
    have now : turnsLeft limit first s = 2 * allowance limit first.executed s.executed + 1 := by
      simp [turnsLeft, status]
    cases fetched : e.fetched with
    | none =>
      have halted := (Machine.step_ok_iff.1 taken).halted_of_unfetched fetched
      have done : turnsLeft limit first (s.afterStep e next) = 0 := by
        simp [turnsLeft, Session.afterStep, Machine.status_halted.2 halted]
      omega
    | some address =>
      have fewer := allowance_succ left
      have bound := turnsLeft_le limit first (s.afterStep e next)
      simp only [Session.afterStep, fetched, Option.isSome_some, if_true] at bound ⊢
      omega
  | @supplied w₁ piece next status withDevice yes asked read accepted =>
    obtain ⟨-, value, -, rfl⟩ := Machine.resume_ok_iff.1 accepted
    simp only [turnsLeft, status, start]
    split
    next => omega
    next => omega
    next awaits => exact absurd awaits (Machine.status_supplied _ _)

/-- A run with a limit ends, whatever its program does. -/
theorem exists_ends_limited (x : Surroundings m σ) (io : Bool) (limit : UInt64)
    (first s : Session) (w : σ) :
    ∃ outcome w', Ends (x.limited limit first) io s w outcome w' := by
  obtain ⟨turn', w₁, taken⟩ := exists_taken (x.limited limit first) io s w
  cases turn' with
  | ended outcome => exact ⟨outcome, w₁, .last taken⟩
  | more next =>
    have fewer := turnsLeft_lt taken
    obtain ⟨outcome, w', ended⟩ := exists_ends_limited x io limit first next w₁
    exact ⟨outcome, w', .earlier taken ended⟩
termination_by turnsLeft limit first s

/-! ## A run that is taken up where it stopped -/

/-- A second run from where the first one ended, and one long run, come to the same. -/
def TakenUp (x : Surroundings m σ) (io : Bool) (b : UInt64) (mid : Session) (w₁ : σ) (c : UInt64)
    (g t : Session) (w : σ) : Prop :=
  ∃ result last last' w₂, Ends (x.limited b mid) io mid.start w₁ (result, last) w₂ ∧
    Ends (x.limited c g) io t w (result, last') w₂ ∧ last.Agree last'

/-- Where the limit stopped the first run, the rest of the long run is the second run. -/
theorem takenUp_of_stopped (agree : s.Agree t) (fresh : s.pause = .none) (pause : Pause)
    (left : allowance c g.executed t.executed = b.toNat) :
    TakenUp x io b { s with pause } w c g t w := by
  have restarted : Agree (start { s with pause }) t := {
    agree with
    haltedLast := by rw [← agree.haltedLast, Session.haltedLast, Session.haltedLast, fresh]; rfl
    brokeLast := by rw [← agree.brokeLast, Session.brokeLast, Session.brokeLast, fresh]; rfl }
  obtain ⟨⟨result, last⟩, w₂, ended⟩ :=
    exists_ends_limited x io b { s with pause } (start { s with pause }) w
  have same : allowance c g.executed t.executed =
      allowance b s.executed (start { s with pause }).executed := by
    simpa [start] using left
  obtain ⟨last', ended', agreed⟩ := ended.agree restarted same
  exact ⟨result, last, last', w₂, ended, ended', agreed⟩

/-- A device that has no input left ends a run, if it does not change by being read. -/
theorem starved_of_spent (status : s.machine.status = .awaitingInput)
    (left : 0 < allowance limit first.executed s.executed) (empty : x.piece w = none)
    (unchanged : x.took w = w) :
    Taken (x.limited limit first) true s w (.ended (.ok (), { s with pause := .awaitingInput }))
      w := by
  have taken : Taken (x.limited limit first) true s w
      (.ended (.ok (), { s with pause := .awaitingInput })) (x.took w) :=
    .starved status rfl (by simpa using left) rfl empty
  rwa [unchanged] at taken

/-- Where the first run ended, the second one takes it up. -/
theorem Taken.takenUp (spent : ∀ w, x.piece w = none → x.took w = w) (agree : s.Agree t)
    (fresh : s.pause = .none) (free : s.breakpoints = [])
    (ahead : allowance c g.executed t.executed = allowance a f.executed s.executed + b.toNat)
    (taken : Taken (x.limited a f) io s w (.ended (.ok (), mid)) w₁) :
    TakenUp x io b mid w₁ c g t w := by
  have same := congrArg Machine.status agree.machine
  have again (pause : Pause) : Agree { s.start with pause } { t with pause } :=
    { agree with haltedLast := rfl, brokeLast := rfl }
  cases taken with
  | halted status =>
    rw [same] at status
    exact ⟨.ok (), _, _, w, .last (.halted (same.trans status)), .last (.halted status), again _⟩
  | waiting status alone =>
    rw [same] at status
    exact ⟨.ok (), _, _, w, .last (.waiting (same.trans status) alone),
      .last (.waiting status alone), again _⟩
  | stopped status no =>
    have none : allowance a f.executed s.executed = 0 := by simpa using no
    exact takenUp_of_stopped agree fresh .tripwire (by omega)
  | unasked status withDevice no =>
    have none : allowance a f.executed s.executed = 0 := by simpa using no
    exact takenUp_of_stopped agree fresh .tripwire (by omega)
  | broken status yes taken atBreak =>
    simp [Session.atBreakpoint, Session.afterStep, free] at atBreak
  | starved status withDevice yes asked empty =>
    subst withDevice
    cases asked
    have left : 0 < allowance a f.executed s.executed := by simpa using yes
    have unchanged : x.took w = w := spent w empty
    have long : Ends (x.limited c g) true t w (.ok (), { t with pause := .awaitingInput }) w :=
      .last (starved_of_spent (same ▸ status) (by omega) empty unchanged)
    show TakenUp x true b _ (x.took w) c g t w
    rw [unchanged]
    -- With nothing left of its limit, the second run does not get to read.
    by_cases spare : 0 < b.toNat
    · have short : Ends (x.limited b { s with pause := .awaitingInput }) true s.start w
          (.ok (), { s.start with pause := .awaitingInput }) w :=
        .last (starved_of_spent status (by simpa [start] using spare) empty unchanged)
      exact ⟨.ok (), _, _, w, short, long, again _⟩
    · have short : Ends (x.limited b { s with pause := .awaitingInput }) true s.start w
          (.ok (), { s.start with pause := .tripwire }) w :=
        .last (.unasked status rfl (by simpa [start] using spare))
      exact ⟨.ok (), _, _, w, short, long, { agree with haltedLast := rfl, brokeLast := rfl }⟩

/-- A turn within a run changes neither the breakpoints nor why the run is said to have paused. -/
theorem Taken.unpaused (taken : Taken x io s w (.more s') w') (fresh : s.pause = .none) :
    s'.pause = .none ∧ s'.breakpoints = s.breakpoints := by
  cases taken with
  | stepped => exact ⟨fresh, rfl⟩
  | supplied => exact ⟨rfl, rfl⟩

/-- A run with a limit that paused is taken up where it ended by a second one. -/
theorem Ends.takenUp (spent : ∀ w, x.piece w = none → x.took w = w) (free : s.breakpoints = [])
    (fits : a.toNat + b.toNat < UInt64.size)
    (ended : Ends (x.limited a s) io s.start w (.ok (), mid) w₁) :
    TakenUp x io b mid w₁ (a + b) s s.start w := by
  have both : (a + b).toNat = a.toNat + b.toNat := by
    rw [UInt64.toNat_add]
    exact Nat.mod_eq_of_lt fits
  refine run_induction (motive := fun u w => u.pause = .none → u.breakpoints = [] →
    ∀ t, u.Agree t →
    allowance (a + b) s.executed t.executed = allowance a s.executed u.executed + b.toNat →
    TakenUp x io b mid w₁ (a + b) s t w) ?_ ?_ ended rfl free s.start (.refl _) ?_
  · intro u w taken fresh free t agree ahead
    exact taken.takenUp spent agree fresh free ahead
  · intro u w u₁ w₁ taken rest fresh free t agree ahead
    obtain ⟨fresh₁, kept⟩ := taken.unpaused fresh
    obtain ⟨t₁, taken', agree₁, ahead₁⟩ := taken.agree_more agree ahead
    obtain ⟨result, last, last', w₂, short, long, agreed⟩ :=
      rest fresh₁ (kept.trans free) t₁ agree₁ ahead₁
    exact ⟨result, last, last', w₂, short, .earlier taken' long, agreed⟩
  · simpa [start] using both

/-- A run without a device that is allowed a number of instructions. -/
def runLimited (limit : UInt64) (turns : Nat) (s : Session) : Option Outcome :=
  s.run (m := Id) (.limited Host.unnoted limit s) turns

/-- A run with a buffer that is allowed a number of instructions, and the buffer after it. -/
def runBuffered (limit : UInt64) (turns : Nat) (s : Session) (queue : Buffer) :
    Option Outcome × Buffer :=
  s.runWith (m := StateM Buffer) (.limited Host.unnoted limit s) (Buffer.device Host.unnoted) turns
    queue

/-- A limit can be split. If a run with the limit `a` pauses and a run with the limit `b` follows,
they come to the same result, to sessions that agree, and to the same inputs unread and outputs
written, as a run with the limit `a + b`. So do runs without a device. -/
theorem limited_add (s : Session) (a b : UInt64) (free : s.breakpoints = [])
    (fits : a.toNat + b.toNat < UInt64.size) :
    (∀ turns queue mid queue₁, s.runBuffered a turns queue = (some (.ok (), mid), queue₁) →
      ∃ result last last' queue₂ more all,
        mid.runBuffered b more queue₁ = (some (result, last), queue₂) ∧
        s.runBuffered (a + b) all queue = (some (result, last'), queue₂) ∧ last.Agree last') ∧
    ∀ turns mid, s.runLimited a turns = some (.ok (), mid) →
      ∃ result last last' more all,
        mid.runLimited b more = some (result, last) ∧
        s.runLimited (a + b) all = some (result, last') ∧ last.Agree last' := by
  constructor
  · intro turns queue mid queue₁ ended
    let x := Surroundings.ofDevice (Buffer.device (m := StateM Buffer) Host.unnoted)
    have spent (w : Buffer) (none : x.piece w = none) : x.took w = w :=
      Buffer.eq_of_read_none none
    have paused : Ends (x.limited a s) true s.start queue (.ok (), mid) queue₁ :=
      ends_iff_runWith.2 ⟨turns, ended⟩
    obtain ⟨result, last, last', queue₂, short, long, agreed⟩ := paused.takenUp spent free fits
    obtain ⟨more, short⟩ := ends_iff_runWith.1 short
    obtain ⟨all, long⟩ := ends_iff_runWith.1 long
    exact ⟨result, last, last', queue₂, more, all, short, long, agreed⟩
  · intro turns mid ended
    let x := Surroundings.alone
    have paused : Ends (x.limited a s) false s.start () (.ok (), mid) () :=
      ends_iff_run.2 ⟨turns, congrArg (·, ()) ended⟩
    obtain ⟨result, last, last', ⟨⟩, short, long, agreed⟩ :=
      paused.takenUp (fun _ _ => rfl) free fits
    obtain ⟨more, short⟩ := ends_iff_run.1 short
    obtain ⟨all, long⟩ := ends_iff_run.1 long
    exact ⟨result, last, last', more, all, congrArg Prod.fst short, congrArg Prod.fst long, agreed⟩

/-- A program that puts out every number it gets, with a count of instructions that is about to
wrap. -/
def copier : Session := { machine := .ofMemory (.ofWords [901, 902, 600]), executed := -1 }

def copied : Buffer := { input := ["7".toList, "8".toList] }

/-- The first run stops at an input that it leaves unread, and the second run reads it. -/
theorem limited_add_copier :
    (∃ mid, copier.runBuffered 1 2 copied = (some (.ok (), mid), copied) ∧
      ∃ result last last' queue₂ more all,
        mid.runBuffered 2 more copied = (some (result, last), queue₂) ∧
        copier.runBuffered (1 + 2) all copied = (some (result, last'), queue₂) ∧
        last.Agree last') ∧
    ∃ mid, copier.runLimited 1 2 = some (.ok (), mid) ∧
      ∃ result last last' more all, mid.runLimited 2 more = some (result, last) ∧
        copier.runLimited (1 + 2) all = some (result, last') ∧ last.Agree last' := by
  have split := limited_add copier 1 2 rfl (by decide)
  exact ⟨⟨_, rfl, split.1 2 copied _ copied rfl⟩, ⟨_, rfl, split.2 2 _ rfl⟩⟩

end Session
end LittleMan
