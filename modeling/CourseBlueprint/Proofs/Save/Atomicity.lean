import CourseBlueprint.Proofs.Save.Evolution
import CourseBlueprint.Proofs.Store.Atomicity

/-!
# What a failed save leaves

Saving an item writes child tags at most, and the item is persisted in between. With a persistence
that never fails, a save that fails leaves the tables as they were: in an import there is nothing to
look up after the first write (`Rulebook.atomic_importing`), and in any other save the locks are
looked up before it (`Rulebook.spares_save`).
-/

namespace CourseBlueprint

variable {α β : Type} {v : Holdings}

namespace Work

/-- Work that ends with a safe store, or fails with the tables as they were. -/
def Atomic (v : Holdings) (x : Work α) : Prop :=
  Action.Triple (fun d : Desk => Store.Safe v d.store) x (fun _ d => Store.Safe v d.store)
    fun d => d.store.holdings = v

theorem Atomic.bind {x : Work α} {f : α → Work β} (hx : Atomic v x) (hf : ∀ a, Atomic v (f a)) :
    Atomic v (x >>= f) := Action.Triple.bind hx hf

theorem Atomic.pure (a : α) : Atomic v (Pure.pure a) := Action.Triple.pure fun _ h => h

theorem Atomic.store {x : Action Store α} (h : Store.Atomic v x) : Atomic v (Work.store x) :=
  triple_store h

theorem Atomic.on {x : Work α} (h : Atomic v x) (i : Item) : Store.Atomic v (Work.on i x) :=
  triple_on (P := Store.Safe v) (E := fun s => s.holdings = v) h i

/-- Work that always has an answer and leaves the store. -/
theorem Atomic.of_run {x : Work α} (h : ∀ d, ∃ a d', x.run d = (.ok a, d') ∧ d'.store = d.store) :
    Atomic v x := by
  intro d hd
  obtain ⟨a, d', hrun, hstore⟩ := h d
  rw [hrun]
  show Store.Safe v d'.store
  rw [hstore]
  exact hd

theorem atomic_item : Atomic v Work.item := .of_run fun d => ⟨_, d, run_item d, rfl⟩

theorem atomic_modifyItem (f : Item → Item) : Atomic v (Work.modifyItem f) :=
  .of_run fun d => ⟨_, _, run_modifyItem f d, rfl⟩

end Work

namespace Rulebook

open Work (Atomic atomic_item atomic_modifyItem)

variable {b : Rulebook} {c : Context} {m : Migration}

/-! ## Imports -/

/-- An import knows the locks in force. -/
theorem atomic_restrictionsInForce (hc : c.migration = some m) :
    Atomic v (restrictionsInForce c) :=
  .of_run fun _ => ⟨_, _, run_restrictionsInForce_import hc, rfl⟩

theorem atomic_isRestricted (hc : c.migration = some m) (scope : Scope) :
    Atomic v (b.isRestricted c scope) := by
  refine .bind atomic_item fun i => ?_
  split
  · exact .pure _
  · exact .bind (atomic_restrictionsInForce hc) fun r => .pure _

theorem atomic_planFor (hc : c.migration = some m) (tag : ChildTag) :
    Atomic v (b.planFor c tag) := by
  refine .bind (atomic_restrictionsInForce hc) fun r => .bind atomic_item fun i => ?_
  simp only
  split
  · exact .bind (atomic_isRestricted hc .any) fun restricted => .pure _
  · exact .pure _

theorem atomic_carryOut (tag : ChildTag) (p : Reconciliation.Plan) :
    Atomic v (Rulebook.carryOut tag p) := by
  have htakeBack : Atomic v
      (if !p.takeBack.isEmpty then do
        Work.modifyItem fun i => i.restore p.takeBack
        .modify fun d =>
          { d with skipped := d.skipped ++ [{ tag with changes := tag.changes \ p.forget }] }
      else pure () : Work Unit) := by
    split
    · exact .bind (atomic_modifyItem _) fun _ => .of_run fun d => ⟨_, _, rfl, rfl⟩
    · exact .pure _
  unfold Rulebook.carryOut
  simp only
  split
  · exact .bind (.store (Store.atomic_removeChanges _ _)) fun _ => htakeBack
  · exact htakeBack

theorem atomic_reconcile : Atomic v (b.reconcile c) := by
  refine .bind atomic_item fun i => ?_
  cases hc : c.migration with
  | none => exact .pure _
  | some m =>
    simp only
    split
    · exact .pure _
    · refine .bind (.store (Store.atomic_findOrCreateChildTag _ _ _)) fun tag => ?_
      split
      · exact .pure _
      · refine .bind (atomic_planFor hc tag) fun p => ?_
        exact .bind (atomic_carryOut tag p) fun _ => .pure _

/-! ## Saves -/

theorem atomic_tagCopy : Atomic v (b.tagCopy c) := by
  refine .bind atomic_item fun i => ?_
  split
  · exact .pure _
  · split
    · exact .pure _
    · exact .bind (.store (Store.atomic_findOrCreateChildTag _ _ _)) fun _ => .pure _

theorem atomic_recordChanges (columns : Option (List String)) :
    Atomic v (b.recordChanges c columns) := by
  refine .bind atomic_item fun i => ?_
  split
  · exact .pure _
  · simp only
    split
    · exact .pure _
    · exact .bind (.store (Store.atomic_mergeChanges _ _)) fun _ => .pure _

/-- Everything in a save but the check of the locks is atomic. -/
theorem triple_save {P : Store → Prop}
    (hcheck : Action.Triple (fun d : Desk => P d.store) (b.check c)
      (fun _ d => Store.Safe v d.store) fun d => d.store.holdings = v) :
    Action.Triple (fun d : Desk => P d.store) (b.save c .noop)
      (fun _ d => Store.Safe v d.store) fun d => d.store.holdings = v := by
  have hpersist : Atomic v (persist .noop) := .of_run fun d => ⟨_, _, run_persist .noop d, rfl⟩
  refine Action.Triple.bind hcheck fun checked => ?_
  split
  · exact Atomic.pure _
  · refine Atomic.bind atomic_item fun i => ?_
    simp only
    split
    · refine .bind (.pure _) fun reconciliation => .bind hpersist fun _ => ?_
      refine .bind (atomic_modifyItem _) fun _ => ?_
      exact .bind atomic_tagCopy fun _ => .pure _
    · refine .bind atomic_reconcile fun reconciliation => .bind hpersist fun _ => ?_
      refine .bind (atomic_modifyItem _) fun _ => ?_
      exact .bind (atomic_recordChanges none) fun _ => .pure _

/-- An import is not checked. -/
theorem atomic_importing (hc : c.migration = some m) : Atomic v (b.save c .noop) :=
  triple_save (Atomic.of_run fun d => ⟨_, d, run_check_import hc, rfl⟩)

/-- In any other save the locks are looked up before anything is written. -/
theorem spares_save : Action.Triple (fun d : Desk => Store.Pristine v d.store) (b.save c .noop)
    (fun _ d => Store.Safe v d.store) fun d => d.store.holdings = v :=
  triple_save (Action.Triple.mono (keeps_check Store.pristine_masterTagsWith) (fun _ h => h)
    (fun _ _ h => h.safe) fun _ h => h.held)

end Rulebook

end CourseBlueprint
