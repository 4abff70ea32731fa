import LittleMan.Noted

/-!
# Results of noted computations

The result of a computation with notes is that of the same computation without them, also where it
goes through a list (`result_mapM`, `result_foldlM`). Going through a list succeeds exactly when
every element does (`mapM_ok_iff`), and fails as the first element does that fails
(`mapM_error_iff`). Where it succeeds, it makes the notes that the elements make
(`notes_mapM_of_ok`).
-/

namespace LittleMan.Noted

variable {ε α β : Type}

@[simp] theorem result_map (f : α → β) (x : Noted ε α) : (f <$> x).result = f <$> x.result := by
  rw [map_eq_pure_bind, result_bind]
  cases x.result <;> rfl

@[simp] theorem ok_bind (a : α) (f : α → Except ε β) : .ok a >>= f = f a := rfl

@[simp] theorem map_ok (f : α → β) (a : α) : f <$> (.ok a : Except ε α) = .ok (f a) := rfl

@[simp] theorem map_error (f : α → β) (e : ε) : f <$> (.error e : Except ε α) = .error e := rfl

theorem result_mapM (f : α → Noted ε β) (xs : List α) :
    (xs.mapM f).result = xs.mapM fun x => (f x).result := by
  induction xs with
  | nil => rfl
  | cons x xs ih => simp only [List.mapM_cons, result_bind, result_pure, ih]; rfl

theorem result_foldlM (f : β → α → Noted ε β) (b : β) (xs : List α) :
    (xs.foldlM f b).result = xs.foldlM (fun b x => (f b x).result) b := by
  induction xs generalizing b with
  | nil => rfl
  | cons x xs ih => simp only [List.foldlM_cons, result_bind, ih]

/-! ## Success -/

theorem bind_ok_iff {x : Except ε α} {f : α → Except ε β} {b : β} :
    x >>= f = .ok b ↔ ∃ a, x = .ok a ∧ f a = .ok b := by
  cases x with
  | error e => simp [bind, Except.bind]
  | ok a => simp [bind, Except.bind]

/-- A computation succeeds on a list when it succeeds on each element, with the results in the same
places. -/
theorem mapM_ok_iff {f : α → Except ε β} {xs : List α} {ys : List β} :
    xs.mapM f = .ok ys ↔
      ys.length = xs.length ∧
        ∀ (k : Nat) (x : α), xs[k]? = some x → ∃ y, ys[k]? = some y ∧ f x = .ok y := by
  induction xs generalizing ys with
  | nil =>
    simp [pure, Except.pure, eq_comm]
  | cons x xs ih =>
    rw [List.mapM_cons, bind_ok_iff]
    constructor
    · rintro ⟨y, first, rest⟩
      obtain ⟨more, others, rest⟩ := bind_ok_iff.1 rest
      cases rest
      obtain ⟨length, each⟩ := ih.1 others
      refine ⟨by simp [length], ?_⟩
      intro k
      cases k with
      | zero => simpa using first
      | succ k => simpa using each k
    · rintro ⟨length, each⟩
      cases ys with
      | nil => simp at length
      | cons y more =>
        have first := each 0 x rfl
        refine ⟨y, by simpa using first, bind_ok_iff.2 ⟨more, ih.2 ⟨?_, ?_⟩, rfl⟩⟩
        · simpa using length
        intro k
        simpa using each (k + 1)

theorem notes_bind_of_ok {x : Noted ε α} {a : α} (done : x.result = .ok a) (f : α → Noted ε β) :
    (x >>= f).notes = x.notes ++ (f a).notes := by
  rw [notes_bind, done]

/-- A computation that succeeds on a list makes the notes that it makes on each element. -/
theorem notes_mapM_of_ok {f : α → Noted ε β} {xs : List α} {ys : List β}
    (done : (xs.mapM f).result = .ok ys) :
    (xs.mapM f).notes = xs.flatMap fun x => (f x).notes := by
  induction xs generalizing ys with
  | nil => rfl
  | cons x xs ih =>
    rw [List.mapM_cons] at done ⊢
    rw [result_bind, bind_ok_iff] at done
    obtain ⟨y, first, rest⟩ := done
    rw [result_bind, bind_ok_iff] at rest
    obtain ⟨more, others, -⟩ := rest
    rw [notes_bind_of_ok first, notes_bind_of_ok others, ih others, notes_pure, List.append_nil]
    rfl

/-! ## Failure -/

theorem bind_error_iff {x : Except ε α} {f : α → Except ε β} {e : ε} :
    x >>= f = .error e ↔ x = .error e ∨ ∃ a, x = .ok a ∧ f a = .error e := by
  cases x with
  | error e' => simp [bind, Except.bind]
  | ok a => simp [bind, Except.bind]

/-- A computation fails on a list as it does on the first element that it fails on. -/
theorem mapM_error_iff {f : α → Except ε β} {xs : List α} {e : ε} :
    xs.mapM f = .error e ↔
      ∃ (k : Nat) (x : α), xs[k]? = some x ∧ f x = .error e ∧
        ∀ j < k, ∀ x', xs[j]? = some x' → ∃ y, f x' = .ok y := by
  induction xs with
  | nil => simp [pure, Except.pure]
  | cons x xs ih =>
    rw [List.mapM_cons, bind_error_iff]
    constructor
    · rintro (failed | ⟨y, first, rest⟩)
      · exact ⟨0, x, rfl, failed, by simp⟩
      · have rest : xs.mapM f = .error e := by
          simpa [bind_error_iff, pure, Except.pure] using rest
        obtain ⟨k, x', at_k, failed, before⟩ := ih.1 rest
        refine ⟨k + 1, x', by simpa using at_k, failed, fun j earlier => ?_⟩
        cases j with
        | zero => simpa using ⟨y, first⟩
        | succ j => simpa using before j (Nat.lt_of_succ_lt_succ earlier)
    · rintro ⟨k, x', at_k, failed, before⟩
      cases k with
      | zero =>
        cases at_k
        exact .inl failed
      | succ k =>
        obtain ⟨y, first⟩ := before 0 (Nat.succ_pos k) x rfl
        have rest : xs.mapM f = .error e :=
          ih.2 ⟨k, x', by simpa using at_k, failed, fun j earlier x'' at_j =>
            before (j + 1) (Nat.succ_lt_succ earlier) x'' (by simpa using at_j)⟩
        exact .inr ⟨y, first, by simp [rest, bind, Except.bind]⟩

/-- A loop fails in one of its steps. -/
theorem exists_of_foldlM_error {f : β → α → Except ε β} {xs : List α} {b : β} {e : ε}
    (failed : xs.foldlM f b = .error e) : ∃ b', ∃ x ∈ xs, f b' x = .error e := by
  induction xs generalizing b with
  | nil => cases failed
  | cons x xs ih =>
    rw [List.foldlM_cons, bind_error_iff] at failed
    rcases failed with first | ⟨b', -, later⟩
    · exact ⟨b, x, List.mem_cons_self, first⟩
    · obtain ⟨b'', x', member, failed⟩ := ih later
      exact ⟨b'', x', List.mem_cons_of_mem x member, failed⟩

end LittleMan.Noted
