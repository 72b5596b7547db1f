import CourseBlueprint.Proofs.Schema
import CourseBlueprint.Settings

/-!
# Configured columns

A configuration only adds to the built-in registry: what is registered stays registered, with its columns
(`Config.extends_of_registry`). So in every deployment the kinds that can belong to a blueprint have
content columns (`Config.content_registered`).
-/

namespace CourseBlueprint

/-- What a step keeps, a run of steps keeps that does not fail. -/
theorem Result.foldlM_keeps {α β : Type} {P : β → Prop} {f : β → α → Result β}
    (hstep : ∀ b a b', P b → f b a = .ok b' → P b') {as : List α} {b b' : β} (hb : P b)
    (h : as.foldlM f b = .ok b') : P b' := by
  induction as generalizing b with
  | nil =>
    obtain rfl := Except.ok.inj h
    exact hb
  | cons a as ih =>
    rw [List.foldlM_cons] at h
    cases hfirst : f b a with
    | error e =>
      rw [hfirst] at h
      cases h
    | ok b₁ =>
      rw [hfirst] at h
      exact ih (hstep b a b₁ hb hfirst) h

/-- A schema in which what another one registers is registered, with its columns. -/
def Schema.Extends (s' s : Schema) : Prop :=
  ∀ g old, s.get g = some old → ∃ new, s'.get g = some new ∧ ∀ column ∈ old, column ∈ new

namespace Schema

variable {s s' s'' : Schema}

theorem Extends.refl (s : Schema) : s.Extends s := fun _ old h => ⟨old, h, fun _ hc => hc⟩

theorem Extends.trans (h' : s''.Extends s') (h : s'.Extends s) : s''.Extends s := by
  intro g old hold
  obtain ⟨new, hnew, hkept⟩ := h g old hold
  obtain ⟨newer, hnewer, hkept'⟩ := h' g new hnew
  exact ⟨newer, hnewer, fun column hc => hkept' column (hkept column hc)⟩

/-- To register a category with more columns takes none away. -/
theorem extends_restrict (s : Schema) (c : Category) (new : List String) :
    (s.restrict c new).Extends s := by
  intro g old hold
  unfold restrict
  rw [PerCategory.get_set]
  by_cases hg : g = c
  · subst hg
    refine ⟨_, if_pos rfl, fun column hc => mem_addColumns.2 (.inl ?_)⟩
    rw [columns, hold]
    exact hc
  · exact ⟨old, by rw [if_neg hg, hold], fun _ hc => hc⟩

theorem Extends.mem_categories (h : s'.Extends s) {g : Category} (hg : g ∈ s.categories) :
    g ∈ s'.categories := by
  obtain ⟨old, hold⟩ := Schema.mem_categories.1 hg
  obtain ⟨new, hnew, -⟩ := h g old hold
  exact Schema.mem_categories.2 ⟨new, hnew⟩

end Schema

namespace Registry

theorem extends_restrictNamed {r r' : Registry} {k : Kind} {name : String} {columns : List String}
    (h : r.restrictNamed k name columns = .ok r') (k' : Kind) : (r' k').Extends (r k') := by
  unfold restrictNamed restrictLock at h
  split at h
  · split at h
    · obtain rfl := Except.ok.inj h
      unfold restrict
      split
      · next hk =>
        rw [hk]
        exact Schema.extends_restrict _ _ _
      · exact .refl _
    · cases h
  · cases h

/-- Every kind that can belong to a blueprint has content columns. -/
theorem content_builtin {k : Kind} (hk : k.allowedInBlueprint = true) :
    .content ∈ (builtin k).categories := by
  cases k with
  | folder => cases hk
  | _ => decide

end Registry

namespace Config

variable {c : Config} {r : Registry}

/-- What is built in is registered in every configuration that is accepted. -/
theorem extends_of_registry (h : c.registry = .ok r) (k : Kind) :
    (r k).Extends (Registry.builtin k) := by
  refine Result.foldlM_keeps (P := fun r => (r k).Extends (Registry.builtin k)) ?_ (.refl _) h
  rintro r₁ ⟨kindName, categories⟩ r₂ hr₁ hkind
  simp only at hkind
  cases hname : Kind.ofName kindName with
  | error e =>
    rw [hname] at hkind
    cases hkind
  | ok k' =>
    rw [hname] at hkind
    refine Result.foldlM_keeps (P := fun r => (r k).Extends (Registry.builtin k)) ?_ hr₁ hkind
    rintro r₃ ⟨name, columns⟩ r₄ hr₃ hcategory
    exact (Registry.extends_restrictNamed hcategory k).trans hr₃

theorem content_registered (h : c.registry = .ok r) {k : Kind} (hk : k.allowedInBlueprint = true) :
    .content ∈ (r k).categories :=
  (extends_of_registry h k).mem_categories (Registry.content_builtin hk)

/-- The registry of a rulebook is that of its configuration. -/
theorem registry_of_rulebook {b : Rulebook} (h : c.rulebook = .ok b) :
    c.registry = .ok b.registry := by
  unfold rulebook at h
  cases hregistry : c.registry with
  | error e =>
    rw [hregistry] at h
    cases h
  | ok r =>
    cases hsettings : c.settings with
    | error e =>
      rw [hregistry, hsettings] at h
      cases h
    | ok settings =>
      rw [hregistry, hsettings] at h
      obtain rfl := Except.ok.inj h
      rfl

end Config

end CourseBlueprint
