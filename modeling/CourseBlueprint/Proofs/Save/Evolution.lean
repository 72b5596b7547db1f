import CourseBlueprint.Proofs.Save.Stages
import CourseBlueprint.Proofs.Store.Evolution

/-!
# What saving does to the store

Asking about locks, summaries and what an import would keep leaves the store alike. What looking and
working on child tags keep, a save keeps in every context, whatever becomes of it (`keeps_save`). So it
leads the store along steps (`evolves_save`).
-/

namespace CourseBlueprint

namespace Rulebook

variable {b : Rulebook} {c : Context} {s₀ : Store}

/-! ## Looking -/

section Looking

variable {P : Store → Prop} (hP : Store.KeptByLooking P)
include hP

theorem keeps_restrictionsInForce :
    Action.Keeps (fun d : Desk => P d.store) (restrictionsInForce c) := by
  have hkeep : ∀ r : Restrictions, Action.Keeps (fun d : Desk => P d.store)
      (Work.modifyItem (fun i => { i with childRestrictions := some r }) >>= fun _ => pure r) :=
    fun r => .bind (Work.keeps_modifyItem _) fun _ => .pure r
  refine .bind Work.keeps_item fun i => ?_
  split
  · exact .pure _
  · simp only
    split
    · exact hkeep _
    · exact hkeep _
    · exact .bind (.map (Work.keeps_store (hP.masterTag? _))) fun found => hkeep _

theorem keeps_isRestricted (scope : Scope) :
    Action.Keeps (fun d : Desk => P d.store) (b.isRestricted c scope) :=
  keeps_isRestricted_of_inForce (keeps_restrictionsInForce hP) scope

theorem keeps_check : Action.Keeps (fun d : Desk => P d.store) (b.check c) :=
  keeps_check_of_inForce (keeps_restrictionsInForce hP)

theorem keeps_summary (role : CourseRole) :
    Action.Keeps (fun d : Desk => P d.store) (b.summary c role) :=
  keeps_summary_of_inForce (keeps_restrictionsInForce hP) role

theorem keeps_keptCategories :
    Action.Keeps (fun d : Desk => P d.store) (b.keptCategories c) := by
  refine .bind Work.keeps_item fun i => ?_
  split
  · exact .pure _
  · refine .bind (Work.keeps_store (Store.keeps_childTag? i.key)) fun found => ?_
    split
    · exact .pure _
    · split
      · exact .pure _
      · exact .bind (keeps_restrictionsInForce hP) fun r => .pure _

end Looking

/-! ## Saving -/

section Saving

variable {P : Store → Prop} (hP : Store.KeptBySaving P)
include hP

theorem keeps_planFor (tag : ChildTag) :
    Action.Keeps (fun d : Desk => P d.store) (b.planFor c tag) := by
  refine .bind (keeps_restrictionsInForce hP.looking) fun r => ?_
  refine .bind Work.keeps_item fun i => ?_
  simp only
  split
  · exact .bind (keeps_isRestricted hP.looking .any) fun restricted => .pure _
  · exact .pure _

theorem keeps_carryOut (tag : ChildTag) (p : Reconciliation.Plan) :
    Action.Keeps (fun d : Desk => P d.store) (Rulebook.carryOut tag p) := by
  have htakeBack : Action.Keeps (fun d : Desk => P d.store)
      (if !p.takeBack.isEmpty then do
        Work.modifyItem fun i => i.restore p.takeBack
        .modify fun d =>
          { d with skipped := d.skipped ++ [{ tag with changes := tag.changes \ p.forget }] }
      else pure () : Work Unit) := by
    split
    · exact .bind (Work.keeps_modifyItem _) fun _ => fun _ h => h
    · exact .pure _
  unfold Rulebook.carryOut
  simp only
  split
  · exact .bind (Work.keeps_store (hP.removeChanges _ _)) fun _ => htakeBack
  · exact htakeBack

theorem keeps_reconcile :
    Action.Keeps (fun d : Desk => P d.store) (b.reconcile c) := by
  refine .bind Work.keeps_item fun i => ?_
  split
  · exact .pure _
  · split
    · exact .pure _
    · refine .bind (Work.keeps_store (hP.findOrCreateChildTag _ _ _)) fun tag => ?_
      split
      · exact .pure _
      · refine .bind (keeps_planFor hP tag) fun p => ?_
        exact .bind (keeps_carryOut hP tag p) fun _ => .pure _

theorem keeps_recordChanges (columns : Option (List String)) :
    Action.Keeps (fun d : Desk => P d.store) (b.recordChanges c columns) := by
  refine .bind Work.keeps_item fun i => ?_
  split
  · exact .pure _
  · simp only
    split
    · exact .pure _
    · exact .bind (Work.keeps_store (hP.mergeChanges _ _)) fun _ => .pure _

theorem keeps_tagCopy :
    Action.Keeps (fun d : Desk => P d.store) (b.tagCopy c) := by
  refine .bind Work.keeps_item fun i => ?_
  split
  · exact .pure _
  · split
    · exact .pure _
    · exact .bind (Work.keeps_store (hP.findOrCreateChildTag _ _ _)) fun _ => .pure _

/-- A save keeps what looking and working on child tags keep. -/
theorem keeps_save (write : Persist) :
    Action.Keeps (fun d : Desk => P d.store) (b.save c write) := by
  have hpersist : Action.Keeps (fun d : Desk => P d.store) (persist write) :=
    .bind Work.keeps_item fun i => .bind (fun _ h => h) fun _ => .liftM _
  refine .bind (keeps_check hP.looking) fun checked => ?_
  split
  · exact .pure _
  · refine .bind Work.keeps_item fun i => ?_
    simp only
    split
    · refine .bind (.pure _) fun reconciliation => .bind hpersist fun _ => ?_
      refine .bind (Work.keeps_modifyItem _) fun _ => ?_
      exact .bind (keeps_tagCopy hP) fun _ => .pure _
    · refine .bind (keeps_reconcile hP) fun reconciliation => .bind hpersist fun _ => ?_
      refine .bind (Work.keeps_modifyItem _) fun _ => ?_
      exact .bind (keeps_recordChanges hP none) fun _ => .pure _

end Saving

/-- A save leads the store along steps. -/
theorem evolves_save (hclock : s₀.supply.ShowsDates) (write : Persist) :
    Action.Keeps (fun d : Desk => s₀.Evolves d.store) (b.save c write) :=
  keeps_save (Store.keptByWriting_evolves hclock).toKeptBySaving write

end Rulebook

end CourseBlueprint
