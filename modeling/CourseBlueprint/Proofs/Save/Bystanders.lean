import CourseBlueprint.Proofs.Save.ChildTags
import CourseBlueprint.Proofs.Save.Importing
import CourseBlueprint.Proofs.Save.KeptLocks
import CourseBlueprint.Proofs.Save.Scopes

/-!
# Items that are no copies

Ordinary content has no migration identifier, or one without the marker. Each operation of a save has
its own guard for it, and by all of them together it passes through: it is handed over once, as it is,
and neither the store nor the locks that are kept with it are looked at, whatever the context
(`Rulebook.bystander_passes`). So a run of saves does to the store what its saves of copies do
(`Rulebook.saveAll_eq_copies`).
-/

namespace CourseBlueprint

/-- The end of a save that did nothing but hand its item over. -/
structure Desk.PassesOn (d : Desk) (write : Persist) (r : Result SaveOutcome) (d' : Desk) : Prop where
  answer : r = (write d.item).map fun _ => .saved ⟨.unrestricted, .noOverlap, none⟩
  handed : d'.handed = d.handed ++ [d.item.attributes]
  store : d'.store = d.store
  skipped : d'.skipped = d.skipped
  locks : d'.item.childRestrictions = d.item.childRestrictions
  item : d'.item = match write d.item with
    | .ok _ => d.item.changesApplied
    | .error _ => d.item

namespace Rulebook

variable {b : Rulebook} {c : Context} {d : Desk}

/-- An item is no copy if its migration identifier is missing or lacks the marker. -/
theorem isCopy_eq_false_iff {i : Item} : b.isCopy i = false ↔
    ∀ id, i.migrationId = some id → ¬ b.settings.marker.toList <+: id.toList := by
  unfold isCopy Settings.marks
  cases i.migrationId with
  | none => simp
  | some id => simp [← Bool.not_eq_true]

section Idle

variable (hskips : b.skips c d.item = true) (hidle : c.migration = none ∨ b.isCopy d.item = false)
include hskips hidle

theorem run_record_of_idle (isNew : Bool) : (b.record c isNew).run d = (.ok none, d) := by
  cases isNew with
  | true => exact Action.run_bind_ok (run_tagCopy_of_idle hidle)
  | false => exact run_recordChanges_of_skips hskips none

/-- A save that is neither checked nor tracked, and no import of a copy, is the writing alone. -/
theorem run_save_of_idle (write : Persist) :
    (b.save c write).run d = match write d.item with
      | .error e => (.error e, d.handOver)
      | .ok _ => (.ok (.saved ⟨.unrestricted, .noOverlap, none⟩), d.handOver.applied) := by
  have hcheck : (b.check c).run d = (.ok (.inl .unrestricted), d) :=
    run_check_of_unrestricted (by rw [hskips, Bool.or_true, Bool.true_or])
  have hprepare : (b.prepare c).run d = (.ok .noOverlap, d) := run_prepare_of_idle (.inr hidle)
  rw [save_eq, Action.run_bind_ok hcheck]
  simp only
  rw [Action.run_bind_ok (Work.run_item d), Action.run_bind_ok hprepare, Action.run_bind, run_persist]
  rcases write d.item with e | _
  · rfl
  · -- the item is as much a copy as before, and so nothing is recorded either
    have hskips' : b.skips c d.handOver.applied.item = true := hskips
    have hidle' : c.migration = none ∨ b.isCopy d.handOver.applied.item = false := hidle
    simp only
    rw [Action.run_bind_ok (Work.run_modifyItem _ _)]
    exact Action.run_bind_ok (run_record_of_idle hskips' hidle' _)

theorem passesOn_save (write : Persist) :
    d.PassesOn write ((b.save c write).run d).1 ((b.save c write).run d).2 := by
  rw [run_save_of_idle hskips hidle]
  rcases hwrite : write d.item with e | _
  · exact ⟨by rw [hwrite]; rfl, rfl, rfl, rfl, rfl, by rw [hwrite]; rfl⟩
  · exact ⟨by rw [hwrite]; rfl, rfl, rfl, rfl, rfl, by rw [hwrite]; rfl⟩

end Idle

theorem skips_of_not_copy {i : Item} (hcopy : b.isCopy i = false) : b.skips c i = true := by
  simp [skips, hcopy]

/-- An item whose migration identifier is missing or lacks the marker passes through every save in
every context, is restricted in no scope, and has nothing that an import would leave alone. -/
theorem bystander_passes (b : Rulebook) (c : Context) {d : Desk}
    (hid : ∀ id, d.item.migrationId = some id → ¬ b.settings.marker.toList <+: id.toList) :
    (∀ write, d.PassesOn write ((b.save c write).run d).1 ((b.save c write).run d).2) ∧
      (∀ scope, (b.isRestricted c scope).run d = (.ok false, d)) ∧
      (b.keptCategories c).run d = (.ok [], d) := by
  have hcopy : b.isCopy d.item = false := isCopy_eq_false_iff.2 hid
  refine ⟨fun write => ?_, fun scope => ?_, ?_⟩
  · exact passesOn_save (skips_of_not_copy hcopy) (.inr hcopy) write
  · exact run_isRestricted_of_not_copy hcopy scope
  · exact run_keptCategories_of_idle hcopy

/-! ## Runs -/

theorem afterSave_of_not_copy {call : SaveCall} (hcopy : b.isCopy call.item = false) (s : Store) :
    b.afterSave s call = s :=
  (passesOn_save (d := call.desk s) (skips_of_not_copy hcopy) (.inr hcopy) call.write).store

/-- A run of saves does to the store what its saves of copies do. -/
theorem saveAll_eq_copies (b : Rulebook) (s : Store) (calls : List SaveCall) :
    b.saveAll s calls = b.saveAll s (calls.filter fun call => b.isCopy call.item) := by
  unfold saveAll
  induction calls generalizing s with
  | nil => rfl
  | cons call calls ih =>
    cases hcopy : b.isCopy call.item with
    | true =>
      simp only [List.filter_cons, hcopy, if_true, List.foldl_cons]
      exact ih (b.afterSave s call)
    | false =>
      simp only [List.filter_cons, hcopy, Bool.false_eq_true, if_false, List.foldl_cons]
      rw [afterSave_of_not_copy hcopy s]
      exact ih s

end Rulebook

namespace Sample

/-- A page of another origin whose body was changed, with a lock of its content kept with it, where
there is a tag for it with recorded changes. -/
def foreignDesk : Desk :=
  ⟨store [tag page ["body"]],
    { edited with
      migrationId := some "elsewhere_page"
      childRestrictions := some (Restrictions.none.set (.only .content) true) }, [], []⟩

theorem foreignDesk_unmarked : ∀ id, foreignDesk.item.migrationId = some id →
    ¬ rulebook.settings.marker.toList <+: id.toList := by
  intro id hid
  obtain rfl := Option.some.inj hid
  decide

/-- Neither its own lock nor an import under that lock restricts the page. -/
theorem foreignDesk_passes :
    (∀ id, foreignDesk.item.migrationId = some id →
      ¬ rulebook.settings.marker.toList <+: id.toList) ∧
    (∀ write, foreignDesk.PassesOn write
      ((rulebook.save (.importing (importUnder (.only .content))) write).run foreignDesk).1
      ((rulebook.save (.importing (importUnder (.only .content))) write).run foreignDesk).2) ∧
    (∀ scope, (rulebook.isRestricted (.importing (importUnder (.only .content))) scope).run
      foreignDesk = (.ok false, foreignDesk)) ∧
    (rulebook.keptCategories (.importing (importUnder (.only .content)))).run foreignDesk =
      (.ok [], foreignDesk) :=
  ⟨foreignDesk_unmarked, Rulebook.bystander_passes rulebook _ foreignDesk_unmarked⟩

end Sample

end CourseBlueprint
