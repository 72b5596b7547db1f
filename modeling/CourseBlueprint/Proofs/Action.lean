import CourseBlueprint.Action

/-!
# Runs of actions

What an action that is put together from others does, from what its parts do. `Triple P x Q E` says
how `x` ends when it starts in a state with `P`; an action `Keeps P` if it leaves a state with `P`
in any case. It `DependsOn` what states show if those that show the same are answered alike.
-/

namespace CourseBlueprint

theorem Result.toOption_eq_some {α : Type} {r : Result α} {a : α} :
    r.toOption = some a ↔ r = .ok a := by
  cases r with
  | error e => simp [Except.toOption]
  | ok a' => simp [Except.toOption]

namespace Action

variable {σ τ α β : Type}

/-! ## Runs that succeed -/

/-- An action that succeeds did each of its steps successfully. -/
theorem run_bind_eq_ok {x : Action σ α} {f : α → Action σ β} {s s' : σ} {b : β} :
    (x >>= f).run s = (.ok b, s') ↔
      ∃ a s₁, x.run s = (.ok a, s₁) ∧ (f a).run s₁ = (.ok b, s') := by
  rw [run_bind]
  constructor
  · intro h
    split at h
    · next a s₁ hx => exact ⟨a, s₁, hx, h⟩
    · cases h
  · rintro ⟨a, s₁, hx, hf⟩
    rw [hx]
    exact hf

/-- An action that ends at all failed at its first part, or did it and went on. -/
theorem run_bind_ends {x : Action σ α} {f : α → Action σ β} {s s' : σ} {r : Result β}
    (h : (x >>= f).run s = (r, s')) :
    (∃ e, x.run s = (.error e, s') ∧ r = .error e) ∨
      ∃ a s₁, x.run s = (.ok a, s₁) ∧ (f a).run s₁ = (r, s') := by
  rw [run_bind] at h
  rcases hx : x.run s with ⟨e | a, s₁⟩
  · rw [hx] at h
    obtain ⟨rfl, rfl⟩ := Prod.mk.inj h
    exact .inl ⟨e, rfl, rfl⟩
  · rw [hx] at h
    exact .inr ⟨a, s₁, rfl, h⟩

/-- What only looks at the state and goes on without it answers what follows from what it saw. -/
theorem run_read {x : Action σ α} {f : α → β} {s : σ} {y : Result α} (hx : x.run s = (y, s)) :
    (x >>= fun a => pure (f a)).run s = (y.map f, s) := by
  rw [run_bind, hx]
  cases y with
  | error e => rfl
  | ok a => rfl

theorem run_pure_eq_ok {a b : α} {s s' : σ} :
    (pure a : Action σ α).run s = (.ok b, s') ↔ a = b ∧ s = s' := by
  rw [run_pure, Prod.mk.injEq, Except.ok.injEq]

@[simp] theorem run_liftM (r : Except Failure α) (s : σ) : (liftM r : Action σ α).run s = (r, s) :=
  rfl

theorem run_liftM_eq_ok {r : Result α} {a : α} {s s' : σ} :
    (liftM (r : Except Failure α) : Action σ α).run s = (.ok a, s') ↔ r = .ok a ∧ s = s' := by
  rw [run_liftM, Prod.mk.injEq]

/-- Actions that succeed in turn. -/
theorem run_mapM_cons_eq_ok {γ : Type} {f : γ → Action σ α} {c : γ} {cs : List γ} {as : List α}
    {s s' : σ} : ((c :: cs).mapM f).run s = (.ok as, s') ↔ ∃ a s₁ rest,
      (f c).run s = (.ok a, s₁) ∧ (cs.mapM f).run s₁ = (.ok rest, s') ∧ as = a :: rest := by
  rw [List.mapM_cons]
  constructor
  · intro h
    obtain ⟨a, s₁, hfirst, h⟩ := run_bind_eq_ok.1 h
    obtain ⟨rest, s₂, hrest, h⟩ := run_bind_eq_ok.1 h
    obtain ⟨rfl, rfl⟩ := run_pure_eq_ok.1 h
    exact ⟨a, s₁, rest, hfirst, hrest, rfl⟩
  · rintro ⟨a, s₁, rest, hfirst, hrest, rfl⟩
    rw [run_bind_ok hfirst, run_bind_ok hrest, run_pure]

/-- An action that does something only under a condition. -/
theorem run_ite (c : Prop) [Decidable c] (x y : Action σ α) (s : σ) :
    (if c then x else y).run s = if c then x.run s else y.run s := by
  split <;> rfl

theorem run_map (f : α → β) (x : Action σ α) (s : σ) :
    (f <$> x).run s = ((x.run s).1.map f, (x.run s).2) := by
  have : f <$> x = x >>= fun a => pure (f a) := (bind_pure_comp f x).symm
  rw [this, run_bind]
  rcases x.run s with ⟨_ | a, s'⟩ <;> rfl

@[simp] theorem run_of (f : σ → Result α × σ) (s : σ) : (of f).run s = f s := rfl

/-! ## Triples -/

/-- From a state with `P`, the action ends in one with `Q`, or fails in one with `E`. -/
def Triple (P : σ → Prop) (x : Action σ α) (Q : α → σ → Prop) (E : σ → Prop) : Prop :=
  ∀ s, P s → match x.run s with
    | (.ok a, s') => Q a s'
    | (.error _, s') => E s'

/-- From a state with `P`, the action leaves one with `P`. -/
def Keeps (P : σ → Prop) (x : Action σ α) : Prop := Triple P x (fun _ => P) P

variable {P E : σ → Prop} {x : Action σ α} {Q : α → σ → Prop}

theorem Triple.bind {f : α → Action σ β} {Q' : β → σ → Prop} (hx : Triple P x Q E)
    (hf : ∀ a, Triple (Q a) (f a) Q' E) : Triple P (x >>= f) Q' E := by
  intro s hs
  have h := hx s hs
  rw [run_bind]
  rcases hrun : x.run s with ⟨e | a, s'⟩
  · rw [hrun] at h
    exact h
  · rw [hrun] at h
    exact hf a s' h

theorem Triple.pure {a : α} (h : ∀ s, P s → Q a s) : Triple P (pure a) Q E := h

theorem Triple.fail {e : Failure} (h : ∀ s, P s → E s) : Triple P (fail e : Action σ α) Q E := h

theorem Triple.liftM {r : Except Failure α} (h : ∀ s, P s → E s)
    (hok : ∀ a, r = .ok a → ∀ s, P s → Q a s) : Triple P (liftM r) Q E := by
  intro s hs
  cases r with
  | ok a => exact hok a rfl s hs
  | error e => exact h s hs

/-- A triple says less of fewer states, and less at the end. -/
theorem Triple.mono {P' E' : σ → Prop} {Q' : α → σ → Prop} (h : Triple P x Q E)
    (hP : ∀ s, P' s → P s) (hQ : ∀ a s, Q a s → Q' a s) (hE : ∀ s, E s → E' s) :
    Triple P' x Q' E' := by
  intro s hs
  have := h s (hP s hs)
  split
  · next hrun =>
    rw [hrun] at this
    exact hQ _ _ this
  · next hrun =>
    rw [hrun] at this
    exact hE _ this

/-- What is known of no state in particular may be used to show what an action does. -/
theorem Triple.under {p : Prop} (h : p → Triple P x Q E) : Triple (fun s => P s ∧ p) x Q E :=
  fun s hs => h hs.2 s hs.1

/-- What holds of the state that is left holds of it in either case. -/
theorem triple_iff : Triple P x (fun _ => E) E ↔ ∀ s, P s → E (x.run s).2 := by
  constructor
  · intro h s hs
    have := h s hs
    split at this
    · next hrun =>
      rw [hrun]
      exact this
    · next hrun =>
      rw [hrun]
      exact this
  · intro h s hs
    have := h s hs
    split
    · next hrun => rwa [hrun] at this
    · next hrun => rwa [hrun] at this

theorem keeps_iff : Keeps P x ↔ ∀ s, P s → P (x.run s).2 := triple_iff

theorem Keeps.of_run (h : Keeps P x) {r : Result α} {s s' : σ} (hrun : x.run s = (r, s'))
    (hs : P s) : P s' := by
  have := keeps_iff.1 h s hs
  rwa [hrun] at this

theorem Keeps.pure (a : α) : Keeps P (Pure.pure a) := Triple.pure fun _ h => h

theorem Keeps.fail (e : Failure) : Keeps P (Action.fail e : Action σ α) := Triple.fail fun _ h => h

theorem Keeps.liftM (r : Except Failure α) : Keeps P (liftM r : Action σ α) :=
  Triple.liftM (fun _ h => h) fun _ _ _ h => h

theorem Keeps.bind {f : α → Action σ β} (hx : Keeps P x) (hf : ∀ a, Keeps P (f a)) :
    Keeps P (x >>= f) := Triple.bind hx hf

theorem Keeps.fail_bind (e : Failure) (f : α → Action σ β) :
    Keeps P (Action.fail e >>= f : Action σ β) := fun _ h => h

theorem Keeps.map {f : α → β} (hx : Keeps P x) : Keeps P (f <$> x) := by
  rw [keeps_iff] at hx ⊢
  intro s hs
  rw [run_map]
  exact hx s hs

/-! ## What answers depend on -/

section Views

variable {κ : Type} {Shows : σ → κ → Prop} {P P' : κ → Prop} {x : Action σ α} {Q Q' : α → κ → Prop}

/-- From any state that shows a view with `P`, the action fails alike, or it ends with the same answer in
a state that shows the same view, and these have `Q`. So it depends on nothing that is not shown. -/
def DependsOn (Shows : σ → κ → Prop) (P : κ → Prop) (x : Action σ α) (Q : α → κ → Prop) : Prop :=
  ∀ k, P k → (∃ s, Shows s k) → (∃ e, ∀ s, Shows s k → (x.run s).1 = .error e) ∨
    ∃ a k', Q a k' ∧ ∀ s, Shows s k → ∃ s', x.run s = (.ok a, s') ∧ Shows s' k'

/-- States that show the same are answered alike. -/
theorem DependsOn.answer_eq (h : DependsOn Shows P x Q) {k : κ} (hk : P k) {s t : σ} (hs : Shows s k)
    (ht : Shows t k) : (x.run s).1 = (x.run t).1 := by
  rcases h k hk ⟨s, hs⟩ with ⟨e, hfails⟩ | ⟨a, k', -, hends⟩
  · rw [hfails s hs, hfails t ht]
  · obtain ⟨s', hs', -⟩ := hends s hs
    obtain ⟨t', ht', -⟩ := hends t ht
    rw [hs', ht']

theorem DependsOn.bind {f : α → Action σ β} {R : β → κ → Prop} (hx : DependsOn Shows P x Q)
    (hf : ∀ a, DependsOn Shows (Q a) (f a) R) : DependsOn Shows P (x >>= f) R := by
  intro k hk hshown
  rcases hx k hk hshown with ⟨e, hfails⟩ | ⟨a, k₁, hk₁, hends⟩
  · refine .inl ⟨e, fun s hs => ?_⟩
    have hrun : x.run s = (.error e, (x.run s).2) := Prod.ext (hfails s hs) rfl
    rw [run_bind_error hrun]
  · have hshown₁ : ∃ s₁, Shows s₁ k₁ := by
      obtain ⟨s, hs⟩ := hshown
      obtain ⟨s₁, -, hs₁⟩ := hends s hs
      exact ⟨s₁, hs₁⟩
    rcases hf a k₁ hk₁ hshown₁ with ⟨e, hfails⟩ | ⟨b, k₂, hk₂, hends₂⟩
    · refine .inl ⟨e, fun s hs => ?_⟩
      obtain ⟨s₁, hrun, hs₁⟩ := hends s hs
      rw [run_bind_ok hrun]
      exact hfails s₁ hs₁
    · refine .inr ⟨b, k₂, hk₂, fun s hs => ?_⟩
      obtain ⟨s₁, hrun, hs₁⟩ := hends s hs
      rw [run_bind_ok hrun]
      exact hends₂ s₁ hs₁

theorem DependsOn.pure {a : α} (h : ∀ k, P k → Q a k) : DependsOn Shows P (Pure.pure a) Q :=
  fun k hk _ => .inr ⟨a, k, h k hk, fun s hs => ⟨s, rfl, hs⟩⟩

theorem DependsOn.fail (e : Failure) : DependsOn Shows P (Action.fail e : Action σ α) Q :=
  fun _ _ _ => .inl ⟨e, fun _ _ => rfl⟩

theorem DependsOn.fail_bind (e : Failure) (f : β → Action σ α) :
    DependsOn Shows P (Action.fail e >>= f) Q := fun _ _ _ => .inl ⟨e, fun _ _ => rfl⟩

theorem DependsOn.liftM {r : Except Failure α} (h : ∀ a, r = .ok a → ∀ k, P k → Q a k) :
    DependsOn Shows P (liftM r : Action σ α) Q := by
  cases r with
  | ok a => exact .pure (h a rfl)
  | error e => exact .fail e

/-- More is asked of what is shown, and less is known in the end. -/
theorem DependsOn.mono (h : DependsOn Shows P x Q) (hP : ∀ k, P' k → P k)
    (hQ : ∀ a k, Q a k → Q' a k) : DependsOn Shows P' x Q' := by
  intro k hk hshown
  rcases h k (hP k hk) hshown with hfails | ⟨a, k', hk', hends⟩
  · exact .inl hfails
  · exact .inr ⟨a, k', hQ a k' hk', hends⟩

theorem DependsOn.map {f : α → β} {R : β → κ → Prop} (h : DependsOn Shows P x fun a => R (f a)) :
    DependsOn Shows P (f <$> x) R := by
  rw [map_eq_pure_bind]
  exact h.bind fun a => .pure fun _ hk => hk

/-- What is known of no view in particular may be used to show what an action depends on. -/
theorem DependsOn.under {p : Prop} (h : p → DependsOn Shows P x Q) :
    DependsOn Shows (fun k => p ∧ P k) x Q := fun k hk => h hk.1 k hk.2

/-- What answers something of the view depends on it, if the state shows the same afterwards. -/
theorem DependsOn.of_read {F : α → Prop} {g : κ → α} (h : ∀ s k, Shows s k →
    ∃ s', x.run s = (.ok (g k), s') ∧ Shows s' k ∧ F (g k)) :
    DependsOn Shows P x fun a k => F a ∧ P k := by
  rintro k hk ⟨s, hs⟩
  obtain ⟨-, -, -, hanswer⟩ := h s k hs
  refine .inr ⟨g k, k, ⟨hanswer, hk⟩, fun s hs => ?_⟩
  obtain ⟨s', hrun, hs', -⟩ := h s k hs
  exact ⟨s', hrun, hs'⟩

end Views

end Action

end CourseBlueprint
