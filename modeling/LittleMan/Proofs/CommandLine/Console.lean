import LittleMan.CommandLine.Perform
import LittleMan.Proofs.Session.Rounds
import LittleMan.Proofs.Text.Trim

/-!
# A terminal of which the output is looked at

A terminal with one file and a text for its input, which keeps the lines that are written. What the
log gets is lost.
-/

namespace LittleMan.CommandLine

/-- What a terminal has to offer, and the lines of output on it. -/
structure Console where
  source : Text
  /-- The pieces of input that are left. -/
  pieces : List Text
  lines : List Text := []
deriving DecidableEq

namespace Console

def terminal : Terminal (StateM Console) where
  file _ := fun c => (.ok c.source, c)
  nextInput := fun c => (c.pieces.head?, { c with pieces := c.pieces.tail })
  putLine line := fun c => ((), { c with lines := c.lines ++ [line] })
  log _ := fun c => ((), c)
  wait _ := fun c => ((), c)

@[simp] theorem file_apply (path : Text) (c : Console) :
    terminal.file path c = (.ok c.source, c) :=
  rfl

theorem bind_apply {α β : Type} (act : StateM Console α) (f : α → StateM Console β) (c : Console) :
    (act >>= f) c = f (act c).1 (act c).2 :=
  rfl

theorem pure_apply {α : Type} (a : α) (c : Console) : (pure a : StateM Console α) c = (a, c) := rfl

theorem map_apply {α β : Type} (f : α → β) (act : StateM Console α) (c : Console) :
    (f <$> act) c = (f (act c).1, (act c).2) :=
  rfl

/-- Actions that change nothing, one after another, change nothing. -/
theorem forM_apply {σ α : Type} {f : α → StateM σ Unit} (silent : ∀ a w, f a w = ((), w))
    (l : List α) (w : σ) : l.forM f w = ((), w) := by
  induction l with
  | nil => rfl
  | cons a l ih =>
    show l.forM f (f a w).2 = ((), w)
    rw [silent, ih]

@[simp] theorem note_apply (level : Level) (notes : List Note) (c : Console) :
    terminal.note level notes c = ((), c) :=
  forM_apply (fun _ _ => rfl) _ c

@[simp] theorem logLine_apply (line : Text) (c : Console) : terminal.logLine line c = ((), c) := rfl

@[simp] theorem logLines_apply (lines : List Text) (c : Console) :
    terminal.logLines lines c = ((), c) :=
  forM_apply (fun _ _ => rfl) _ c

@[simp] theorem putLines_apply (lines : List Text) (c : Console) :
    terminal.putLines lines c = ((), { c with lines := c.lines ++ lines }) := by
  rw [Terminal.putLines]
  induction lines generalizing c with
  | nil => simp [pure_apply]
  | cons line lines ih =>
    rw [List.forM, bind_apply, ih]
    simp [terminal]

theorem load_apply {level : Level} (path : Text) (strict : Bool) (c : Console) :
    load terminal level path strict c =
      (match (Assembly.assemble { strict, symbols := true } c.source).result with
        | .error _ => none
        | .ok object => some (c.source, object), c) := by
  cases built : (Assembly.assemble { strict, symbols := true } c.source).result <;>
    simp only [load, bind_apply, file_apply, note_apply, built, logLines_apply, pure_apply]

/-- What running a program does to the inputs of the command line that are left and to the
terminal. -/
def surroundings (level : Level) (settings : Settings) :
    Surroundings (StateT (List Text) (StateM Console)) (List Text × Console) where
  host := terminalHost terminal level settings
  device := terminalDevice terminal
  eval act w := ((act w.1 w.2).1.1, (act w.1 w.2).1.2, (act w.1 w.2).2)
  goesOn s _ := settings.limit.all (s.executed < ·)
  asked _ w := w
  piece w := (w.1 ++ w.2.pieces).head?
  took w :=
    match w with
    | (_ :: queue, c) => (queue, c)
    | ([], c) => ([], { c with pieces := c.pieces.tail })
  wrote value w := (w.1, { w.2 with lines := w.2.lines ++ [value.text] })
  eval_pure _ _ := rfl
  eval_bind _ _ _ := rfl
  eval_mayGoOn s w := by
    by_cases slow : settings.delay.getD 0 ≠ 0
    · simp only [terminalHost, if_pos slow]
      rfl
    · simp only [terminalHost, if_neg slow]
      rfl
  eval_note notes w := by
    have quiet := note_apply level notes w.2
    show ((terminal.note level notes w.2).1, w.1, (terminal.note level notes w.2).2) = ((), w)
    rw [quiet]
  eval_read w := by
    obtain ⟨_ | ⟨input, queue⟩, c⟩ := w
    · rfl
    · rfl
  eval_write _ _ := rfl

theorem eval_eq {level : Level} {settings : Settings} {α : Type}
    {act : StateT (List Text) (StateM Console) α} {a : α} {queue queue' : List Text}
    {c c' : Console}
    (ran : act.run queue c = ((a, queue'), c')) :
    (surroundings level settings).eval act (queue, c) = (a, queue', c') := by
  show ((act.run queue c).1.1, (act.run queue c).1.2, (act.run queue c).2) = _
  rw [ran]

end Console
end LittleMan.CommandLine
