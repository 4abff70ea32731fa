import LittleMan.Proofs.Session.Rounds

/-!
# Transcripts of runs

Surroundings that keep a transcript of what a run asks, writes and reads, and answer by how often
they were asked before.
-/

namespace LittleMan

/-- What a run exchanges with its host and its device. -/
inductive Exchange where
  /-- The host was asked at this session whether the run may go on. -/
  | asked (s : Session) (goOn : Bool)
  | wrote (value : Word)
  /-- The device was asked for a piece of input, and had one or had none left. -/
  | took (piece : Option Text)

namespace Exchange

@[simp] def isAsked : Exchange → Bool
  | asked _ _ => true
  | _ => false

@[simp] def isTook : Exchange → Bool
  | took _ => true
  | _ => false

/-- The value that was written. -/
@[simp] def value? : Exchange → Option Word
  | wrote value => some value
  | _ => none

/-- The piece of input that was read, as it is supplied to the machine. -/
@[simp] def token? : Exchange → Option Text
  | took piece => piece.map Text.trimBlanks
  | _ => none

end Exchange

/-- What a run exchanged, in order. -/
abbrev Transcript := List Exchange

namespace Transcript

/-- How often the host was asked. -/
def questions (t : Transcript) : Nat := t.countP Exchange.isAsked

/-- How often the device was asked for input. -/
def readings (t : Transcript) : Nat := t.countP Exchange.isTook

/-- The values that were written. -/
def written (t : Transcript) : List Word := t.filterMap Exchange.value?

/-- The tokens that were read. -/
def tokens (t : Transcript) : List Text := t.filterMap Exchange.token?

/-- The transcript without what was written. -/
def unwritten (t : Transcript) : Transcript := t.filter (·.value?.isNone)

section Nil

@[simp] theorem questions_nil : questions [] = 0 := rfl

@[simp] theorem readings_nil : readings [] = 0 := rfl

@[simp] theorem written_nil : written [] = [] := rfl

@[simp] theorem tokens_nil : tokens [] = [] := rfl

@[simp] theorem unwritten_nil : unwritten [] = [] := rfl

end Nil

section Cons
variable (e : Exchange) (t : Transcript)

@[simp] theorem questions_cons :
    questions (e :: t) = t.questions + if e.isAsked then 1 else 0 :=
  List.countP_cons

@[simp] theorem readings_cons : readings (e :: t) = t.readings + if e.isTook then 1 else 0 :=
  List.countP_cons

@[simp] theorem written_cons : written (e :: t) = e.value?.toList ++ t.written := by
  cases e <;> rfl

@[simp] theorem tokens_cons : tokens (e :: t) = e.token?.toList ++ t.tokens := by
  cases e with
  | took piece => cases piece <;> rfl
  | _ => rfl

@[simp] theorem unwritten_cons :
    unwritten (e :: t) = if e.value?.isNone then e :: t.unwritten else t.unwritten :=
  List.filter_cons

end Cons

section Append
variable (t u : Transcript)

@[simp] theorem questions_append : questions (t ++ u) = t.questions + u.questions :=
  List.countP_append

@[simp] theorem readings_append : readings (t ++ u) = t.readings + u.readings :=
  List.countP_append

@[simp] theorem written_append : written (t ++ u) = t.written ++ u.written :=
  List.filterMap_append

@[simp] theorem tokens_append : tokens (t ++ u) = t.tokens ++ u.tokens :=
  List.filterMap_append

@[simp] theorem unwritten_append : unwritten (t ++ u) = t.unwritten ++ u.unwritten :=
  List.filter_append ..

end Append

/-- What was written is neither a question nor a reading. -/
@[simp] theorem questions_unwritten (t : Transcript) : t.unwritten.questions = t.questions := by
  induction t with
  | nil => rfl
  | cons e t ih => cases e <;> simp [ih]

@[simp] theorem readings_unwritten (t : Transcript) : t.unwritten.readings = t.readings := by
  induction t with
  | nil => rfl
  | cons e t ih => cases e <;> simp [ih]

section Wrote
variable (values : List Word)

@[simp] theorem written_wrote : written (values.map .wrote) = values := by
  induction values <;> simp_all

@[simp] theorem tokens_wrote : tokens (values.map .wrote) = [] := by
  induction values <;> simp_all

@[simp] theorem questions_wrote : questions (values.map .wrote) = 0 := by
  induction values <;> simp_all

@[simp] theorem readings_wrote : readings (values.map .wrote) = 0 := by
  induction values <;> simp_all

@[simp] theorem unwritten_wrote : unwritten (values.map .wrote) = [] := by
  induction values <;> simp_all

end Wrote

end Transcript

/-- The answers of a host that changes no session, and of a device. -/
structure Answers where
  /-- Whether a run may go on, when the host is asked and was asked `k` times before. -/
  goesOn (k : Nat) : Session → Bool
  /-- The piece of input, when the device is read and was read `k` times before. -/
  piece (k : Nat) : Option Text

namespace Answers

/-- The host with these answers. It takes no notes. -/
def host (x : Answers) : Host (StateM Transcript) where
  mayGoOn s := fun t =>
    let goOn := x.goesOn t.questions s
    ((goOn, s), t ++ [.asked s goOn])
  note _ := fun t => ((), t)

/-- The device with these answers. -/
def device (x : Answers) : Device (StateM Transcript) where
  read := fun t =>
    let piece := x.piece t.readings
    (piece, t ++ [.took piece])
  write value := fun t => ((), t ++ [.wrote value])

/-- What the host and the device do to the transcript. -/
def surroundings (x : Answers) : Surroundings (StateM Transcript) Transcript where
  host := x.host
  device := x.device
  eval act t := act t
  goesOn s t := x.goesOn t.questions s
  asked s t := t ++ [.asked s (x.goesOn t.questions s)]
  piece t := x.piece t.readings
  took t := t ++ [.took (x.piece t.readings)]
  wrote value t := t ++ [.wrote value]
  eval_pure _ _ := rfl
  eval_bind _ _ _ := rfl
  eval_mayGoOn _ _ := rfl
  eval_note _ _ := rfl
  eval_read _ := rfl
  eval_write _ _ := rfl

section Fields
variable (x : Answers) (s : Session) (t : Transcript)

@[simp] theorem surroundings_goesOn : x.surroundings.goesOn s t = x.goesOn t.questions s := rfl

@[simp] theorem surroundings_asked :
    x.surroundings.asked s t = t ++ [.asked s (x.goesOn t.questions s)] :=
  rfl

@[simp] theorem surroundings_piece : x.surroundings.piece t = x.piece t.readings := rfl

@[simp] theorem surroundings_took :
    x.surroundings.took t = t ++ [.took (x.piece t.readings)] :=
  rfl

end Fields

/-- What a step puts out stands at the end of the transcript. -/
theorem delivered_eq (x : Answers) (io : Bool) (e : Effect) (t : Transcript) :
    x.surroundings.delivered io e t =
      t ++ if io then e.output.toList.map Exchange.wrote else [] := by
  cases io with
  | false => simp [Surroundings.delivered]
  | true => cases output : e.output <;> simp [Surroundings.delivered, output, surroundings]

/-- What a round still owes stands at the end of the transcript when it is written. -/
theorem settled_eq (x : Answers) (s : Session) (v : Transcript × Nat) :
    x.surroundings.settled s v = v.1 ++ (s.output.toList.drop v.2).map .wrote := by
  have wroteAll (values : List Word) (t : Transcript) :
      x.surroundings.wroteAll values t = t ++ values.map .wrote := by
    induction values generalizing t with
    | nil => simp [Surroundings.wroteAll]
    | cons value rest ih =>
      rw [Surroundings.wroteAll, List.foldl_cons, ← Surroundings.wroteAll, ih]
      simp [surroundings]
  exact wroteAll ..

section Settled
variable (x : Answers) (s : Session) (v : Transcript × Nat)

@[simp] theorem questions_settled :
    (x.surroundings.settled s v).questions = v.1.questions := by
  rw [settled_eq, Transcript.questions_append, Transcript.questions_wrote, Nat.add_zero]

@[simp] theorem readings_settled : (x.surroundings.settled s v).readings = v.1.readings := by
  rw [settled_eq, Transcript.readings_append, Transcript.readings_wrote, Nat.add_zero]

@[simp] theorem unwritten_settled : (x.surroundings.settled s v).unwritten = v.1.unwritten := by
  rw [settled_eq, Transcript.unwritten_append, Transcript.unwritten_wrote, List.append_nil]

end Settled

end Answers
end LittleMan
