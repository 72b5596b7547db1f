import CourseBlueprint.Proofs.Save.Stages

/-!
# What recording does

The columns that a save has to record are the governed ones among those it saved; of a deletion the
state column is left out, and the deletion itself is recorded (`mem_columnsToRecord_iff`). `Recorded`
lists all ends of recording them. A row has changed in one of these only: the owner's tag lacked some
of the columns and has got them.
-/

namespace CourseBlueprint

/-- Whether the last save deleted the item. -/
def Item.savedDeletion (i : Item) : Bool :=
  match i.saved.get? i.stateColumn with
  | some change => change.new.isText deletedState
  | none => false

namespace Rulebook

variable {b : Rulebook} {c : Context} {write : Persist} {d d' : Desk} {column : String}

/-! ## Columns to record -/

theorem mem_columnsToRecord_iff {i : Item} :
    column ∈ b.columnsToRecord i none ↔
      (column ∈ i.saved.keys ∧ column ∈ (b.schemaOf i).allColumns ∧
          (i.savedDeletion = true → column ≠ i.stateColumn)) ∨
        column = manuallyDeleted ∧ i.savedDeletion = true := by
  have hchanged : column ∈
      NameSet.ofList (i.saved.keys.filter fun k => decide (k ∈ (b.schemaOf i).allColumns)) ↔
        column ∈ i.saved.keys ∧ column ∈ (b.schemaOf i).allColumns := by
    rw [NameSet.mem_ofList, List.mem_filter, decide_eq_true_eq]
  have hshape : b.columnsToRecord i none =
      if i.savedDeletion then
        ((NameSet.ofList (i.saved.keys.filter fun k =>
          decide (k ∈ (b.schemaOf i).allColumns))).filter fun k => k ≠ i.stateColumn).insert
            manuallyDeleted
      else NameSet.ofList (i.saved.keys.filter fun k => decide (k ∈ (b.schemaOf i).allColumns)) := by
    unfold columnsToRecord Item.savedDeletion
    cases i.saved.get? i.stateColumn with
    | none => rfl
    | some change => rfl
  rw [hshape]
  cases i.savedDeletion with
  | false => simp [hchanged]
  | true =>
    simp only [if_true, NameSet.mem_insert, NameSet.mem_filter, hchanged, and_true, true_implies,
      decide_eq_true_eq, and_assoc]
    exact Or.comm

/-- A governed column that was saved is to be recorded, unless it holds the state. -/
theorem mem_columnsToRecord {i : Item} (hsaved : column ∈ i.saved.keys)
    (hgoverned : column ∈ (b.schemaOf i).allColumns) (hstate : column ≠ i.stateColumn) :
    column ∈ b.columnsToRecord i none :=
  mem_columnsToRecord_iff.2 (.inl ⟨hsaved, hgoverned, fun _ => hstate⟩)

/-- Only governed columns and deletions are recorded. -/
theorem governed_of_mem_columnsToRecord {i : Item} (h : column ∈ b.columnsToRecord i none) :
    column ∈ (b.schemaOf i).allColumns ∨ column = manuallyDeleted := by
  rcases mem_columnsToRecord_iff.1 h with ⟨-, hgoverned, -⟩ | ⟨hdeleted, -⟩
  · exact .inl hgoverned
  · exact .inr hdeleted

/-! ## Runs -/

/-- The ends of recording what was saved: the save is not tracked; there is nothing to record; the
changes could not be written; the owner has no tag; its tag had all of them; or it has got those it
lacked. -/
inductive Recorded (b : Rulebook) (c : Context) (d : Desk) : Result (Option Merge) → Desk → Prop
  | untracked (hskips : b.skips c d.item = true) : Recorded b c d (.ok none) d
  | nothing (hskips : b.skips c d.item = false)
      (hnone : (b.columnsToRecord d.item none).isEmpty = true) : Recorded b c d (.ok none) d
  | refused {e : Failure} {s : Store} (hskips : b.skips c d.item = false)
      (hlater : d.store.supply.Later s.supply) (hstored : s.stored = d.store.stored) :
      Recorded b c d (.error e) { d with store := s }
  | missing {s : Store} (hskips : b.skips c d.item = false)
      (hlater : d.store.supply.Later s.supply) (hstored : s.stored = d.store.stored)
      (htag : d.store.stored.childTag? d.item.tagOwner = .ok none) :
      Recorded b c d (.ok (some .missing)) { d with store := s }
  | known {s : Store} {tag : ChildTag} (hskips : b.skips c d.item = false)
      (hlater : d.store.supply.Later s.supply)
      (htag : d.store.stored.childTag? d.item.tagOwner = .ok (some tag))
      (hknown : ∀ x ∈ b.columnsToRecord d.item none, x ∈ tag.changes)
      (hstored : s.stored = d.store.stored) :
      Recorded b c d (.ok (some .unchanged)) { d with store := s }
  | grew {s : Store} {tag : ChildTag} (hskips : b.skips c d.item = false)
      (hlater : d.store.supply.Later s.supply)
      (htag : d.store.stored.childTag? d.item.tagOwner = .ok (some tag))
      (hstored : d.store.stored.SetsChanges tag
        (tag.changes ∪ (b.columnsToRecord d.item none \ tag.changes)) s.stored) :
      Recorded b c d (.ok (some (.grew (b.columnsToRecord d.item none \ tag.changes))))
        { d with store := s }

theorem run_recordChanges_of_skips (h : b.skips c d.item = true) (columns : Option (List String)) :
    (b.recordChanges c columns).run d = (.ok none, d) := by
  rw [recordChanges, Action.run_bind_ok (Work.run_item d), if_pos h]
  rfl

theorem run_recordChanges_of_nothing {columns : Option (List String)}
    (hskips : b.skips c d.item = false) (hnone : (b.columnsToRecord d.item columns).isEmpty = true) :
    (b.recordChanges c columns).run d = (.ok none, d) := by
  rw [recordChanges, Action.run_bind_ok (Work.run_item d)]
  simp only [hskips, hnone, Bool.false_eq_true, if_false, if_true]
  rfl

/-- Where there is anything to record, recording is a merge on the tag of the item's owner. -/
theorem run_recordChanges_of_merge {columns : Option (List String)} {rm : Result Merge} {s : Store}
    (hskips : b.skips c d.item = false) (hsome : (b.columnsToRecord d.item columns).isEmpty = false)
    (hrun : (Store.mergeChanges d.item.tagOwner (b.columnsToRecord d.item columns)).run d.store =
      (rm, s)) :
    (b.recordChanges c columns).run d = (rm.map some, { d with store := s }) := by
  rw [recordChanges, Action.run_bind_ok (Work.run_item d)]
  simp only [hskips, hsome, Bool.false_eq_true, if_false]
  rw [Action.run_bind, Work.run_store_of hrun]
  cases rm <;> rfl

theorem recorded {r : Result (Option Merge)} (hclock : d.store.supply.ShowsDates)
    (h : (b.recordChanges c none).run d = (r, d')) : b.Recorded c d r d' := by
  cases hskips : b.skips c d.item with
  | true =>
    rw [run_recordChanges_of_skips hskips] at h
    obtain ⟨rfl, rfl⟩ := Prod.mk.inj h
    exact .untracked hskips
  | false =>
    cases hnone : (b.columnsToRecord d.item none).isEmpty with
    | true =>
      rw [run_recordChanges_of_nothing hskips hnone] at h
      obtain ⟨rfl, rfl⟩ := Prod.mk.inj h
      exact .nothing hskips hnone
    | false =>
      rcases hrun : (Store.mergeChanges d.item.tagOwner (b.columnsToRecord d.item none)).run
        d.store with ⟨rm, s⟩
      rw [run_recordChanges_of_merge hskips hnone hrun] at h
      obtain ⟨rfl, rfl⟩ := Prod.mk.inj h
      obtain ⟨hlater, -, ⟨e, rfl, hstored⟩ | ⟨-, ⟨rfl, htag, hstored⟩ | ⟨tag, htag,
        ⟨rfl, hadded, hstored⟩ | ⟨rfl, -, hstored⟩⟩⟩⟩ := Store.mergeChanges_spec hclock hrun
      · exact .refused hskips hlater hstored
      · exact .missing hskips hlater hstored htag
      · refine .known hskips hlater htag (fun x hx => ?_) hstored
        by_cases hknown : x ∈ tag.changes
        · exact hknown
        · exact absurd (NameSet.mem_diff.2 ⟨hx, hknown⟩) (NameSet.isEmpty_iff.1 hadded x)
      · exact .grew hskips hlater htag hstored

/-! ## Importing -/

/-- The import of an item that is there saves what its reconciliation left. -/
theorem run_save_import {m : Migration} (hc : c.migration = some m) (hnew : d.item.isNew = false) :
    (b.save c write).run d = match (b.reconcile c).run d with
      | (.error e, d') => (.error e, d')
      | (.ok reconciliation, d') => match write d'.item with
        | .error e => (.error e, d'.handOver)
        | .ok _ => (.ok (.saved ⟨.unrestricted, reconciliation, none⟩), d'.handOver.applied) := by
  rw [save_eq, Action.run_bind_ok (run_check_import hc)]
  simp only
  rw [Action.run_bind_ok (Work.run_item d), Action.run_bind, run_prepare_of_not_isNew hnew]
  rcases (b.reconcile c).run d with ⟨e | reconciliation, d'⟩
  · rfl
  · simp only
    rw [Action.run_bind, run_persist]
    rcases write d'.item with e | _
    · rfl
    · have hskips : b.skips c d'.handOver.applied.item = true := by
        simp [skips, Context.isImport, hc]
      simp only
      rw [Action.run_bind_ok (Work.run_modifyItem _ _), hnew, record, if_neg Bool.false_ne_true]
      exact Action.run_bind_ok (run_recordChanges_of_skips hskips none)

/-- An import that saved an item that was there has reconciled it, and saved what that left. -/
theorem run_reconcile_of_saved {m : Migration} {report : SaveReport} (hc : c.migration = some m)
    (hnew : d.item.isNew = false) (h : (b.save c write).run d = (.ok (.saved report), d')) :
    ∃ d₁, (b.reconcile c).run d = (.ok report.reconciliation, d₁) ∧ d' = d₁.handOver.applied := by
  rw [run_save_import hc hnew] at h
  rcases hreconcile : (b.reconcile c).run d with ⟨e | reconciliation, d₁⟩
  · rw [hreconcile] at h
    cases (Prod.mk.inj h).1
  · rw [hreconcile] at h
    simp only at h
    split at h
    · cases (Prod.mk.inj h).1
    · obtain ⟨hreport, rfl⟩ := Prod.mk.inj h
      obtain rfl := SaveOutcome.saved.inj (Except.ok.inj hreport)
      exact ⟨d₁, rfl, rfl⟩

/-- The import of a new item saves it as it is, and then gives a copy its tag. -/
theorem run_save_import_of_isNew {m : Migration} (hc : c.migration = some m)
    (hnew : d.item.isNew = true) :
    (b.save c write).run d = match write d.item with
      | .error e => (.error e, d.handOver)
      | .ok _ => match (b.tagCopy c).run d.handOver.applied with
        | (.error e, d') => (.error e, d')
        | (.ok _, d') => (.ok (.saved ⟨.unrestricted, .noOverlap, none⟩), d') := by
  rw [save_eq, Action.run_bind_ok (run_check_import hc)]
  simp only
  rw [Action.run_bind_ok (Work.run_item d), Action.run_bind_ok (run_prepare_of_isNew hnew),
    Action.run_bind, run_persist]
  rcases write d.item with e | _
  · rfl
  · simp only
    rw [Action.run_bind_ok (Work.run_modifyItem _ _), hnew, record_new_bind]
    rcases htag : (b.tagCopy c).run d.handOver.applied with ⟨e | tag?, d'⟩
    · exact Action.run_bind_error htag
    · exact Action.run_bind_ok htag

end Rulebook

end CourseBlueprint
