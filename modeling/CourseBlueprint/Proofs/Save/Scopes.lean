import CourseBlueprint.Proofs.Save.Reconciliation

/-!
# How the scopes hang together

A copy is asked whether editing is restricted in a scope: all of its categories, any of them or one
lock. What is restricted in a wider scope is restricted in a narrower one, as long as there is a category
to speak of, and the lock of everything restricts each (`Rulebook.scopes_ordered`). Where no category is
registered, "all of them" holds of any locks that were ever set, and "any of them" only if everything is
locked.
-/

namespace CourseBlueprint

namespace Restrictions

variable {r : Restrictions} {s : Schema}

/-- All is restricted if any lock was ever set, and everything is locked or each registered category
is. -/
theorem restrict_all_iff : r.restrict s .all = true ↔
    r.isEmpty = false ∧ (r.locksEverything = true ∨ ∀ g ∈ s.categories, r.isLocked g = true) := by
  simp [restrict, Rulebook.answersScope]

/-- The lock of everything restricts each scope. -/
theorem restrict_of_locksEverything (h : r.locksEverything = true) (scope : Scope) :
    r.restrict s scope = true := by
  simp [restrict, isEmpty_of_isOn (l := .everything) h, h]

theorem restrict_of_isEmpty (h : r.isEmpty = true) (scope : Scope) : r.restrict s scope = false := by
  simp [restrict, h]

theorem restrict_only_of_all {g : Category} (hg : g ∈ s.categories) (h : r.restrict s .all = true) :
    r.restrict s (.only (.only g)) = true := by
  rw [restrict_only, Bool.or_eq_true]
  exact (restrict_all_iff.1 h).2.imp_right fun hall => hall g hg

theorem restrict_any_of_only {g : Category} (hg : g ∈ s.categories)
    (h : r.restrict s (.only (.only g)) = true) : r.restrict s .any = true := by
  rw [restrict_only, Bool.or_eq_true] at h
  exact restrict_any_iff.2 (h.imp_right fun hlocked => ⟨g, hg, hlocked⟩)

/-- To ask about the lock of everything is to ask whether each scope is restricted. -/
theorem restrict_of_only_everything (h : r.restrict s (.only .everything) = true) (scope : Scope) :
    r.restrict s scope = true := by
  rw [restrict_only, locksEverything, Bool.or_self] at h
  exact restrict_of_locksEverything h scope

end Restrictions

namespace Rulebook

variable {b : Rulebook} {c : Context} {d d' : Desk} {r : Restrictions} {scope : Scope}

/-- The locks in force are kept with the item once they are found. -/
theorem item_of_restrictionsInForce (h : (restrictionsInForce c).run d = (.ok r, d')) :
    d'.item = d.item.withLocks r := by
  cases hkept : d.item.childRestrictions with
  | some r₀ =>
    rw [run_restrictionsInForce_of_kept hkept] at h
    obtain ⟨hr, rfl⟩ := Prod.mk.inj h
    obtain rfl := Except.ok.inj hr
    exact (Item.withLocks_of_eq hkept).symm
  | none =>
    -- looking them up leaves the item
    have hkeep : ∀ (found : Option Restrictions) {d₁ : Desk}, d₁.item = d.item →
        (do
          Work.modifyItem fun i => { i with childRestrictions := some (found.getD .none) }
          return found.getD .none : Work Restrictions).run d₁ = (.ok r, d') →
        d'.item = d.item.withLocks r := by
      intro found d₁ hitem hrun
      obtain ⟨hr, rfl⟩ := Prod.mk.inj hrun
      obtain rfl := Except.ok.inj hr
      rw [← hitem]
      rfl
    rw [restrictionsInForce, Action.run_bind_ok (Work.run_item d)] at h
    simp only [hkept] at h
    cases hid : d.item.migrationId with
    | none =>
      rw [hid] at h
      exact hkeep none rfl h
    | some id =>
      cases hc : c.migration with
      | some m =>
        rw [hid, hc] at h
        exact hkeep (m.find? id) rfl h
      | none =>
        rw [hid, hc] at h
        obtain ⟨found, d₁, hfound, h⟩ := Action.run_bind_eq_ok.1 h
        rw [Action.run_map, Work.run_store] at hfound
        obtain ⟨-, rfl⟩ := Prod.mk.inj hfound
        refine hkeep found ?_ h
        rfl

/-- Whether a copy answers that editing is restricted in a scope. -/
def Restricts (b : Rulebook) (c : Context) (d : Desk) (scope : Scope) : Prop :=
  ∃ d', (b.isRestricted c scope).run d = (.ok true, d')

theorem run_isRestricted_of_error {e : Failure} (hcopy : b.isCopy d.item = true)
    (h : (restrictionsInForce c).run d = (.error e, d')) (scope : Scope) :
    (b.isRestricted c scope).run d = (.error e, d') := by
  rw [isRestricted, Action.run_bind_ok (Work.run_item d)]
  simp only [hcopy, Bool.not_true, Bool.false_eq_true, if_false]
  rw [Action.run_bind_error h]

theorem run_isRestricted_of_not_copy (h : b.isCopy d.item = false) (scope : Scope) :
    (b.isRestricted c scope).run d = (.ok false, d) := by
  rw [isRestricted, Action.run_bind_ok (Work.run_item d)]
  simp only [h, Bool.not_false, if_true]
  rfl

/-- A scope is restricted if the item is a copy and its locks can be found and restrict it. -/
theorem restricts_iff : b.Restricts c d scope ↔ b.isCopy d.item = true ∧
    ∃ r d', (restrictionsInForce c).run d = (.ok r, d') ∧
      r.restrict (b.schemaOf d.item) scope = true := by
  cases hcopy : b.isCopy d.item with
  | false => simp [Restricts, run_isRestricted_of_not_copy hcopy]
  | true =>
    rcases hrun : (restrictionsInForce c).run d with ⟨e | r, d'⟩
    · simp [Restricts, run_isRestricted_of_error hcopy hrun]
    · simp [Restricts, run_isRestricted hcopy hrun]

/-- A scope that any locks restrict if they restrict another is restricted if that one is. -/
theorem Restricts.imp {scope' : Scope} (h : b.Restricts c d scope)
    (himp : ∀ r : Restrictions, r.restrict (b.schemaOf d.item) scope = true →
      r.restrict (b.schemaOf d.item) scope' = true) : b.Restricts c d scope' := by
  obtain ⟨hcopy, r, d', hrun, hrestricts⟩ := restricts_iff.1 h
  exact restricts_iff.2 ⟨hcopy, r, d', hrun, himp r hrestricts⟩

theorem restricts_iff_of_inForce (hcopy : b.isCopy d.item = true)
    (h : (restrictionsInForce c).run d = (.ok r, d')) :
    b.Restricts c d scope ↔ r.restrict (b.schemaOf d.item) scope = true := by
  simp [restricts_iff, hcopy, h]

/-- How the scopes of an item hang together, by whichever locks and however they are found. -/
structure ScopesOrdered (b : Rulebook) (c : Context) (d : Desk) : Prop where
  any_of_all : (b.schemaOf d.item).categories ≠ [] → b.Restricts c d .all → b.Restricts c d .any
  only_of_all : ∀ g ∈ (b.schemaOf d.item).categories, b.Restricts c d .all →
    b.Restricts c d (.only (.only g))
  any_of_only : ∀ g ∈ (b.schemaOf d.item).categories, b.Restricts c d (.only (.only g)) →
    b.Restricts c d .any
  of_only_everything : b.Restricts c d (.only .everything) → ∀ scope, b.Restricts c d scope
  everything : ∀ r d', b.isCopy d.item = true → (restrictionsInForce c).run d = (.ok r, d') →
    r.locksEverything = true → ∀ scope, b.Restricts c d scope
  notCopy : b.isCopy d.item = false → ∀ scope, (b.isRestricted c scope).run d = (.ok false, d)
  unset : ∀ r d', b.isCopy d.item = true → (restrictionsInForce c).run d = (.ok r, d') →
    r.isEmpty = true → ∀ scope, (b.isRestricted c scope).run d = (.ok false, d')
  /-- Where there is no category to speak of. -/
  unregistered : ∀ r d', b.isCopy d.item = true → (restrictionsInForce c).run d = (.ok r, d') →
    (b.schemaOf d.item).categories = [] →
    (b.Restricts c d .all ↔ r.isEmpty = false) ∧ (b.Restricts c d .any ↔ r.locksEverything = true)
  /-- Asking in one scope, which may be the first time the locks are looked up, changes no answer. -/
  asked : ∀ first answer d', (b.isRestricted c first).run d = (.ok answer, d') →
    ∀ scope, b.Restricts c d' scope ↔ b.Restricts c d scope

/-- For every item, its scopes are ordered. -/
theorem scopes_ordered (b : Rulebook) (c : Context) (d : Desk) : b.ScopesOrdered c d where
  any_of_all := by
    intro hsome hall
    obtain ⟨g, hg⟩ := List.exists_mem_of_ne_nil _ hsome
    exact (hall.imp fun _ => Restrictions.restrict_only_of_all hg).imp
      fun _ => Restrictions.restrict_any_of_only hg
  only_of_all := by
    intro g hg hall
    exact hall.imp fun _ => Restrictions.restrict_only_of_all hg
  any_of_only := by
    intro g hg honly
    exact honly.imp fun _ => Restrictions.restrict_any_of_only hg
  of_only_everything := by
    intro honly scope
    exact honly.imp fun _ h => Restrictions.restrict_of_only_everything h scope
  everything := by
    intro r d' hcopy hrun heverything scope
    exact (restricts_iff_of_inForce hcopy hrun).2
      (Restrictions.restrict_of_locksEverything heverything scope)
  notCopy := run_isRestricted_of_not_copy
  unset := by
    intro r d' hcopy hrun hempty scope
    rw [run_isRestricted hcopy hrun, Restrictions.restrict_of_isEmpty hempty]
  unregistered := by
    intro r d' hcopy hrun hnone
    rw [restricts_iff_of_inForce hcopy hrun, restricts_iff_of_inForce hcopy hrun,
      Restrictions.restrict_all_iff, Restrictions.restrict_any_iff, hnone]
    simp
  asked := by
    intro first answer d' hfirst scope
    cases hcopy : b.isCopy d.item with
    | false =>
      rw [run_isRestricted_of_not_copy hcopy] at hfirst
      obtain ⟨-, rfl⟩ := Prod.mk.inj hfirst
      rfl
    | true =>
      rcases hrun : (restrictionsInForce c).run d with ⟨e | r, d₁⟩
      · rw [run_isRestricted_of_error hcopy hrun] at hfirst
        cases (Prod.mk.inj hfirst).1
      · rw [run_isRestricted hcopy hrun] at hfirst
        obtain ⟨-, rfl⟩ := Prod.mk.inj hfirst
        have hitem := item_of_restrictionsInForce hrun
        have hkept : d₁.item.childRestrictions = some r := by rw [hitem]; rfl
        have hcopy' : b.isCopy d₁.item = true := by rw [hitem]; exact hcopy
        rw [restricts_iff_of_inForce hcopy' (run_restrictionsInForce_of_kept hkept),
          restricts_iff_of_inForce hcopy hrun, hitem]
        rfl

end Rulebook

namespace Sample

/-- A copy of a folder, for which no category is registered. -/
def folderDesk : Desk :=
  ⟨store [], { Item.persisted ⟨.folder, ⟨1⟩⟩ ∅ with migrationId := some migrationId }, [], []⟩

/-- "All of them" does not imply "any of them": a folder with a lock has no category, so that all of
its categories are locked and none is. -/
theorem not_any_of_all : ¬ ∀ (b : Rulebook) (c : Context) (d : Desk),
    b.Restricts c d .all → b.Restricts c d .any := by
  intro h
  have hall : (rulebook.isRestricted (.importing (importUnder (.only .content))) .all).run
      folderDesk = (.ok true, _) := rfl
  obtain ⟨d', hany⟩ := h rulebook (.importing (importUnder (.only .content))) folderDesk ⟨_, hall⟩
  have hnot : (rulebook.isRestricted (.importing (importUnder (.only .content))) .any).run
      folderDesk = (.ok false, _) := rfl
  rw [hnot] at hany
  cases (Prod.mk.inj hany).1

end Sample

end CourseBlueprint
