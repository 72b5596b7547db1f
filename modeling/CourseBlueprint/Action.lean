import CourseBlueprint.Failure

/-!
# Actions

An `Action σ α` works on a state of type `σ` and ends with an `α` or with a failure. The state it
leaves is kept in both cases: what was done before a failure stays done.
-/

namespace CourseBlueprint

/-- A computation on a state that may fail and leaves a state in any case. -/
def Action (σ α : Type) := σ → Result α × σ

namespace Action

variable {σ τ α β : Type}

/-- Runs an action on a state. -/
def run (x : Action σ α) (s : σ) : Result α × σ := x s

/-- The action of a function on states. -/
def of (f : σ → Result α × σ) : Action σ α := f

protected def pure (a : α) : Action σ α := fun s => (.ok a, s)

protected def bind (x : Action σ α) (f : α → Action σ β) : Action σ β := fun s =>
  match x s with
  | (.ok a, s') => f a s'
  | (.error e, s') => (.error e, s')

instance : Monad (Action σ) where
  pure := Action.pure
  bind := Action.bind

/-- Ends with a failure. -/
def fail (e : Failure) : Action σ α := fun s => (.error e, s)

/-- The state. -/
def get : Action σ σ := fun s => (.ok s, s)

/-- Changes the state. -/
def modify (f : σ → σ) : Action σ Unit := fun s => (.ok (), f s)

/-- Ends as a result says, without touching the state. -/
def lift (r : Result α) : Action σ α := fun s => (r, s)

instance : MonadLift (Except Failure) (Action σ) := ⟨lift⟩

/-- Works on a part of the state. -/
def zoom (view : σ → τ) (put : τ → σ → σ) (x : Action τ α) : Action σ α := fun s =>
  let (r, t) := x (view s)
  (r, put t s)

/-! ## Lemmas -/

@[simp] theorem run_pure (a : α) (s : σ) : (pure a : Action σ α).run s = (.ok a, s) := rfl

@[simp] theorem run_fail (e : Failure) (s : σ) : (fail e : Action σ α).run s = (.error e, s) := rfl

@[simp] theorem run_get (s : σ) : (get : Action σ σ).run s = (.ok s, s) := rfl

@[simp] theorem run_modify (f : σ → σ) (s : σ) : (modify f).run s = (.ok (), f s) := rfl

@[simp] theorem run_lift (r : Result α) (s : σ) : (lift r : Action σ α).run s = (r, s) := rfl

theorem run_bind (x : Action σ α) (f : α → Action σ β) (s : σ) :
    (x >>= f).run s = match x.run s with
      | (.ok a, s') => (f a).run s'
      | (.error e, s') => (.error e, s') := rfl

theorem run_bind_ok {x : Action σ α} {f : α → Action σ β} {s s' : σ} {a : α}
    (h : x.run s = (.ok a, s')) : (x >>= f).run s = (f a).run s' := by rw [run_bind, h]

theorem run_bind_error {x : Action σ α} {f : α → Action σ β} {s s' : σ} {e : Failure}
    (h : x.run s = (.error e, s')) : (x >>= f).run s = (.error e, s') := by rw [run_bind, h]

instance : LawfulMonad (Action σ) := LawfulMonad.mk' (Action σ)
  (fun x => by
    funext s
    show (match x s with
      | (.ok a, s') => (Except.ok a, s')
      | (.error e, s') => (.error e, s')) = x s
    rcases x s with ⟨_ | _, _⟩ <;> rfl)
  (fun _ _ => rfl)
  (fun x f g => by
    funext s
    show Action.bind (Action.bind x f) g s = Action.bind x (fun a => Action.bind (f a) g) s
    unfold Action.bind
    rcases x s with ⟨_ | _, _⟩ <;> rfl)

end Action

end CourseBlueprint
