import CourseBlueprint.Save.Locks

/-!
# Reconciliation

Before an import writes a copy, it is reconciled with what was changed in the child course. For each
category with recorded changes: if it is locked the import wins, and the recorded changes of the
category are forgotten; if not, the child wins, and the pending changes of the category are taken
back. A copy that was deleted in the child course stays so unless anything about it is restricted.
-/

namespace CourseBlueprint

/-- What reconciliation did. -/
inductive Reconciliation where
  /-- Nothing recorded stood in the way. -/
  | noOverlap
  /-- The recorded changes `overwritten` were forgotten, the pending ones `preserved` taken back. -/
  | partiallyOverwritten (overwritten preserved : NameSet)
  /-- Pending changes were taken back, and nothing was forgotten. -/
  | fullyPreserved
deriving DecidableEq

namespace Reconciliation

/-- The recorded columns to forget, and the pending ones to take back. -/
structure Plan where
  forget : NameSet
  takeBack : List String

namespace Plan

def empty : Plan := ⟨∅, []⟩

/-- The plan after one more category. -/
def consider (r : Restrictions) (tag : ChildTag) (i : Item) (p : Plan) (category : Category)
    (columns : List String) : Plan :=
  let overlap := tag.changesWithin columns
  if overlap.isEmpty then p
  else if r.isLocked category then { p with forget := overlap.foldl NameSet.insert p.forget }
  else { p with takeBack := Schema.addColumns p.takeBack (Rulebook.pendingWithin i columns) }

/-- The plan for all categories of a schema. -/
def ofSchema (r : Restrictions) (tag : ChildTag) (i : Item) (s : Schema) : Plan :=
  s.entries.foldl (fun p e => consider r tag i p e.1 e.2) empty

/-- Whether an item is about to be brought back from deletion. -/
def isUndelete (i : Item) : Bool :=
  match i.pending.get? i.stateColumn with
  | some change => change.old.isText Item.deletedState
  | none => false

/-- The plan when the item is brought back from a deletion in the child course. -/
def undelete (p : Plan) (restricted : Bool) (stateColumn : String) : Plan :=
  if restricted then { p with forget := p.forget.insert manuallyDeleted }
  else { p with takeBack := Schema.addColumns p.takeBack [stateColumn] }

/-- What carrying out the plan amounts to. -/
def outcome (p : Plan) : Reconciliation :=
  if !p.forget.isEmpty then .partiallyOverwritten p.forget (.ofList p.takeBack)
  else if !p.takeBack.isEmpty then .fullyPreserved
  else .noOverlap

end Plan

end Reconciliation

namespace Rulebook

open Reconciliation (Plan)

/-- The plan for an item and its tag. -/
def planFor (b : Rulebook) (c : Context) (tag : ChildTag) : Work Plan := do
  let r ← restrictionsInForce c
  let i ← Work.item
  let p := Plan.ofSchema r tag i (b.schemaOf i)
  if Plan.isUndelete i && tag.isManuallyDeleted then
    return p.undelete (← b.isRestricted c .any) i.stateColumn
  else
    return p

/-- Carries out a plan: first on the tag, then on the item. -/
def carryOut (tag : ChildTag) (p : Plan) : Work Unit := do
  if !p.forget.isEmpty then
    let _ ← Work.store (Store.removeChanges tag.content p.forget)
  if !p.takeBack.isEmpty then
    Work.modifyItem fun i => i.restore p.takeBack
    .modify fun d =>
      { d with skipped := d.skipped ++ [{ tag with changes := tag.changes \ p.forget }] }

/-- Reconciles an item that an import is about to write. -/
def reconcile (b : Rulebook) (c : Context) : Work Reconciliation := do
  let i ← Work.item
  match c.migration with
  | none => return .noOverlap
  | some m =>
    if !b.isCopy i then return .noOverlap
    let tag ← Work.store (Store.findOrCreateChildTag m.subscription.id i.key i.migrationId)
    if tag.changes.isEmpty then return .noOverlap
    let p ← b.planFor c tag
    carryOut tag p
    return p.outcome

/-- The categories in which an import would leave a copy's changes alone. -/
def keptCategories (b : Rulebook) (c : Context) : Work (List Category) := do
  let i ← Work.item
  if !c.isImport || !b.isCopy i then return []
  match ← Work.store (Store.childTag? i.key) with
  | none => return []
  | some tag =>
    if tag.changes.isEmpty then return []
    let r ← restrictionsInForce c
    return ((b.schemaOf i).entries.filter fun (category, columns) =>
      !r.isLocked category && !(tag.changesWithin columns).isEmpty).map Prod.fst

end Rulebook

end CourseBlueprint
