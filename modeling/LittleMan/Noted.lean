import LittleMan.Note

/-!
# Computations with notes

A computation that may fail, together with what it noted on the way. Notes made before a failure are
kept. Main statements: the result and the notes of two computations in a row follow from their own
results and notes (`result_bind`, `notes_bind`), so notes never change what is computed.
-/

namespace LittleMan

/-- An outcome, and the notes that were made on the way to it, in order. -/
structure Noted (ε α : Type) where
  notes : List Note
  result : Except ε α

namespace Noted

variable {ε α β : Type}

instance : Monad (Noted ε) where
  pure a := ⟨[], .ok a⟩
  bind x f :=
    match x.result with
    | .ok a => ⟨x.notes ++ (f a).notes, (f a).result⟩
    | .error e => ⟨x.notes, .error e⟩

def fail (e : ε) : Noted ε α := ⟨[], .error e⟩

def tell (notes : List Note) : Noted ε Unit := ⟨notes, .ok ()⟩

@[simp] theorem result_pure (a : α) : (pure a : Noted ε α).result = .ok a := rfl

@[simp] theorem notes_pure (a : α) : (pure a : Noted ε α).notes = [] := rfl

@[simp] theorem result_fail (e : ε) : (fail e : Noted ε α).result = .error e := rfl

@[simp] theorem notes_fail (e : ε) : (fail e : Noted ε α).notes = [] := rfl

@[simp] theorem result_tell (notes : List Note) : (tell notes : Noted ε Unit).result = .ok () := rfl

@[simp] theorem notes_tell (notes : List Note) : (tell notes : Noted ε Unit).notes = notes := rfl

@[simp] theorem result_bind (x : Noted ε α) (f : α → Noted ε β) :
    (x >>= f).result = x.result >>= fun a => (f a).result := by
  rcases x with ⟨notes, _ | a⟩ <;> rfl

theorem notes_bind (x : Noted ε α) (f : α → Noted ε β) :
    (x >>= f).notes = x.notes ++ (match x.result with
      | .ok a => (f a).notes
      | .error _ => []) := by
  rcases x with ⟨notes, _ | a⟩
  · simp [bind]
  · rfl

instance : LawfulMonad (Noted ε) := LawfulMonad.mk' _
  (fun x => by
    rcases x with ⟨notes, _ | a⟩
    · rfl
    · simp [Functor.map])
  (fun a f => by simp [bind, pure])
  (fun x f g => by
    rcases x with ⟨notes, _ | a⟩
    · rfl
    · simp only [bind]
      rcases (f a).result with _ | b <;> simp)

end Noted
end LittleMan
