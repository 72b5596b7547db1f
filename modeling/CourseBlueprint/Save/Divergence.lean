import CourseBlueprint.Save.Locks

/-!
# Divergence

After a save in a child course, the columns it changed are recorded on the child tag of the item's
owner. A deletion is recorded as such and not as a change of the state column. After an import has
made a copy, the copy gets its child tag.
-/

namespace CourseBlueprint

namespace Rulebook

/-- The columns to record: those given, or else the saved ones of any category. -/
def columnsToRecord (b : Rulebook) (i : Item) (columns : Option (List String)) : NameSet :=
  let changed := match columns with
    | some columns => NameSet.ofList columns
    | none => NameSet.ofList (i.saved.keys.filter fun k => decide (k ∈ (b.schemaOf i).allColumns))
  match i.saved.get? i.stateColumn with
  | some change =>
    if change.new.isText Item.deletedState then
      (changed.filter fun k => k ≠ i.stateColumn).insert manuallyDeleted
    else changed
  | none => changed

/-- Records what the last save changed, if it is tracked and there is anything to record. -/
def recordChanges (b : Rulebook) (c : Context) (columns : Option (List String)) :
    Work (Option Merge) := do
  let i ← Work.item
  if b.skips c i then return none
  let changed := b.columnsToRecord i columns
  if changed.isEmpty then return none
  return some (← Work.store (Store.mergeChanges i.tagOwner changed))

/-- Gives a copy that an import has made its child tag. -/
def tagCopy (b : Rulebook) (c : Context) : Work (Option ChildTag) := do
  let i ← Work.item
  match c.migration with
  | none => return none
  | some m =>
    if !b.isCopy i then return none
    return some (← Work.store (Store.findOrCreateChildTag m.subscription.id i.key i.migrationId))

end Rulebook

end CourseBlueprint
