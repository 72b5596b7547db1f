import CourseBlueprint.Proofs.Save.Reconciliation
import CourseBlueprint.Save

/-!
# The stages of a save

A save is checked, reconciled unless the item is new, handed over to be persisted and then recorded.
`Stages` lists its ends: each stage can stop it, and the later ones have then not begun.
-/

namespace CourseBlueprint

/-- The desk after its item was handed over. -/
def Desk.handOver (d : Desk) : Desk := { d with handed := d.handed ++ [d.item.attributes] }

/-- The desk after the changes of its item were saved. -/
def Desk.applied (d : Desk) : Desk := { d with item := d.item.changesApplied }

namespace Rulebook

variable {b : Rulebook} {c : Context} {write : Persist} {d d' : Desk}

/-- Reconciles the item unless it is new. -/
def prepare (b : Rulebook) (c : Context) : Work Reconciliation := do
  if (← Work.item).isNew then return .noOverlap else b.reconcile c

theorem run_prepare_of_isNew (h : d.item.isNew = true) :
    (b.prepare c).run d = (.ok .noOverlap, d) := by
  rw [prepare, Action.run_bind_ok (Work.run_item d), if_pos h]
  rfl

theorem run_prepare_of_not_isNew (h : d.item.isNew = false) :
    (b.prepare c).run d = (b.reconcile c).run d := by
  rw [prepare, Action.run_bind_ok (Work.run_item d), h]
  rfl

/-- An item that is not imported, or is no copy, is not reconciled. -/
theorem run_reconcile_of_idle (h : c.migration = none ∨ b.isCopy d.item = false) :
    (b.reconcile c).run d = (.ok .noOverlap, d) := by
  rw [reconcile, Action.run_bind_ok (Work.run_item d)]
  cases hc : c.migration with
  | none => rfl
  | some m =>
    have hcopy : b.isCopy d.item = false := h.resolve_left (by simp [hc])
    simp only [hcopy, Bool.not_false, if_true]
    rfl

theorem run_persist (write : Persist) (d : Desk) :
    (persist write).run d = (write d.item, d.handOver) := rfl

/-- Records what a save did: a new item gets its child tag, for any other the changes are merged. -/
def record (b : Rulebook) (c : Context) (isNew : Bool) : Work (Option Merge) := do
  if isNew then
    let _ ← b.tagCopy c
    return none
  else b.recordChanges c none

theorem record_new_bind {α : Type} (b : Rulebook) (c : Context) (f : Option Merge → Work α) :
    b.record c true >>= f = b.tagCopy c >>= fun _ => f none := by
  show (b.tagCopy c >>= fun _ => pure none) >>= f = _
  rw [bind_assoc]
  rfl

/-- A save as the sequence of its stages. -/
theorem save_eq (b : Rulebook) (c : Context) (write : Persist) :
    b.save c write = (do
      match ← b.check c with
      | .inr rejection => return .rejected rejection
      | .inl check =>
        let isNew := (← Work.item).isNew
        let reconciliation ← b.prepare c
        persist write
        Work.modifyItem Item.changesApplied
        let merge ← b.record c isNew
        return .saved ⟨check, reconciliation, merge⟩) := by
  refine bind_congr fun k => ?_
  cases k with
  | inr rejection => rfl
  | inl check =>
    funext d
    show Action.run _ d = Action.run _ d
    rw [Action.run_bind_ok (Work.run_item d), Action.run_bind_ok (Work.run_item d), Action.run_bind]
    cases hnew : d.item.isNew with
    | true =>
      rw [run_prepare_of_isNew hnew]
      simp only [record_new_bind]
      rfl
    | false =>
      rw [run_prepare_of_not_isNew hnew]
      rfl

/-- The ends of a save. The locks could not be looked up, or forbid it; reconciling, writing or
recording failed; or all stages were passed. -/
inductive Stages (b : Rulebook) (c : Context) (write : Persist) (d : Desk) :
    Result SaveOutcome → Desk → Prop
  | unchecked {e d₁} (hcheck : (b.check c).run d = (.error e, d₁)) :
      Stages b c write d (.error e) d₁
  | rejected {rejection d₁} (hcheck : (b.check c).run d = (.ok (.inr rejection), d₁)) :
      Stages b c write d (.ok (.rejected rejection)) d₁
  | unprepared {k d₁ e d₂} (hcheck : (b.check c).run d = (.ok (.inl k), d₁))
      (hprepare : (b.prepare c).run d₁ = (.error e, d₂)) :
      Stages b c write d (.error e) d₂
  | unwritten {k d₁ reconciliation d₂ e} (hcheck : (b.check c).run d = (.ok (.inl k), d₁))
      (hprepare : (b.prepare c).run d₁ = (.ok reconciliation, d₂))
      (hwrite : write d₂.item = .error e) :
      Stages b c write d (.error e) d₂.handOver
  | unrecorded {k d₁ reconciliation d₂ e d₃} (hcheck : (b.check c).run d = (.ok (.inl k), d₁))
      (hprepare : (b.prepare c).run d₁ = (.ok reconciliation, d₂))
      (hwrite : write d₂.item = .ok ())
      (hrecord : (b.record c d₁.item.isNew).run d₂.handOver.applied = (.error e, d₃)) :
      Stages b c write d (.error e) d₃
  | saved {k d₁ reconciliation d₂ merge d₃} (hcheck : (b.check c).run d = (.ok (.inl k), d₁))
      (hprepare : (b.prepare c).run d₁ = (.ok reconciliation, d₂))
      (hwrite : write d₂.item = .ok ())
      (hrecord : (b.record c d₁.item.isNew).run d₂.handOver.applied = (.ok merge, d₃)) :
      Stages b c write d (.ok (.saved ⟨k, reconciliation, merge⟩)) d₃

theorem stages {r : Result SaveOutcome} (h : (b.save c write).run d = (r, d')) :
    Stages b c write d r d' := by
  rw [save_eq, Action.run_bind] at h
  rcases hcheck : (b.check c).run d with ⟨e | k | rejection, d₁⟩
  · rw [hcheck] at h
    obtain ⟨rfl, rfl⟩ := Prod.mk.inj h
    exact .unchecked hcheck
  · rw [hcheck] at h
    simp only at h
    rw [Action.run_bind_ok (Work.run_item d₁), Action.run_bind] at h
    rcases hprepare : (b.prepare c).run d₁ with ⟨e | reconciliation, d₂⟩
    · rw [hprepare] at h
      obtain ⟨rfl, rfl⟩ := Prod.mk.inj h
      exact .unprepared hcheck hprepare
    · rw [hprepare] at h
      simp only at h
      rw [Action.run_bind, run_persist] at h
      rcases hwrite : write d₂.item with e | _
      · rw [hwrite] at h
        obtain ⟨rfl, rfl⟩ := Prod.mk.inj h
        exact .unwritten hcheck hprepare hwrite
      · rw [hwrite] at h
        simp only at h
        have happlied : ({ d₂.handOver with item := d₂.handOver.item.changesApplied } : Desk) =
            d₂.handOver.applied := rfl
        rw [Action.run_bind_ok (Work.run_modifyItem _ _), Action.run_bind, happlied] at h
        rcases hrecord : (b.record c d₁.item.isNew).run d₂.handOver.applied with ⟨e | merge, d₃⟩
        · rw [hrecord] at h
          obtain ⟨rfl, rfl⟩ := Prod.mk.inj h
          exact .unrecorded hcheck hprepare hwrite hrecord
        · rw [hrecord] at h
          obtain ⟨rfl, rfl⟩ := Prod.mk.inj h
          exact .saved hcheck hprepare hwrite hrecord
  · rw [hcheck] at h
    obtain ⟨rfl, rfl⟩ := Prod.mk.inj h
    exact .rejected hcheck

/-! ## Two sorts of saves -/

theorem unmoved_of_check {r : Result (Check ⊕ Rejection)} (h : (b.check c).run d = (r, d')) :
    d.Unmoved d' := unmoved_check.of_run h (.refl d)

/-- An import is not checked. -/
theorem run_check_import {m : Migration} (hc : c.migration = some m) :
    (b.check c).run d = (.ok (.inl .unrestricted), d) := by
  refine run_check_of_unrestricted ?_
  simp [skips, Context.isImport, hc]

/-- Nothing is prepared but the import of a copy that is there. -/
theorem run_prepare_of_idle
    (h : d.item.isNew = true ∨ c.migration = none ∨ b.isCopy d.item = false) :
    (b.prepare c).run d = (.ok .noOverlap, d) := by
  cases hnew : d.item.isNew with
  | true => exact run_prepare_of_isNew hnew
  | false =>
    rw [run_prepare_of_not_isNew hnew]
    exact run_reconcile_of_idle (h.resolve_left (by simp [hnew]))

end Rulebook

end CourseBlueprint
