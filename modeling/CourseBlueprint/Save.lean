import CourseBlueprint.Save.Divergence
import CourseBlueprint.Save.Reconciliation

/-!
# Saving

A save checks an item against the locks, reconciles it with the child course if an import writes it,
hands it over to be persisted, and records what it changed. It ends at the first step that refuses
or fails.
-/

namespace CourseBlueprint

/-- What a save did. -/
structure SaveReport where
  check : Check
  reconciliation : Reconciliation
  /-- What recording the changes did, if there was anything to record. -/
  merge : Option Merge
deriving DecidableEq

/-- The end of a save. -/
inductive SaveOutcome where
  | rejected (r : Rejection)
  | saved (report : SaveReport)
deriving DecidableEq

namespace SaveOutcome

/-- Whether the item was saved. -/
def isSaved : SaveOutcome → Bool
  | rejected _ => false
  | saved _ => true

end SaveOutcome

/-- Writes an item, or says why not. -/
abbrev Persist := Item → Result Unit

/-- Writes nothing and always succeeds. -/
def Persist.noop : Persist := fun _ => .ok ()

namespace Rulebook

/-- Hands the item over to be persisted. -/
def persist (write : Persist) : Work Unit := do
  let i ← Work.item
  .modify fun d => { d with handed := d.handed ++ [i.attributes] }
  write i

/-- Saves the item. -/
def save (b : Rulebook) (c : Context) (write : Persist) : Work SaveOutcome := do
  match ← b.check c with
  | .inr rejection => return .rejected rejection
  | .inl check =>
    let isNew := (← Work.item).isNew
    let reconciliation ← if isNew then pure .noOverlap else b.reconcile c
    persist write
    Work.modifyItem Item.changesApplied
    if isNew then
      let _ ← b.tagCopy c
      return .saved ⟨check, reconciliation, none⟩
    else
      let merge ← b.recordChanges c none
      return .saved ⟨check, reconciliation, merge⟩

end Rulebook

end CourseBlueprint
