import CourseBlueprint.Item
import CourseBlueprint.Migration
import CourseBlueprint.Settings
import CourseBlueprint.Summary

/-!
# Locks in force

Which locks apply to an item, and what they forbid. An item is a copy if its migration identifier
starts with the marker. The locks of a copy are those of the blueprint content it was made from.
They are taken from the migration by an import and from the store by any other save, and the item
keeps them once found. A save by a user is rejected if it changes a column of a locked category.
-/

namespace CourseBlueprint

/-- An item at work, with the store and what the work leaves behind. -/
structure Desk where
  store : Store
  item : Item
  /-- The tags of the items that an import could only partly write. -/
  skipped : List ChildTag
  /-- The attributes handed over to be persisted, each time it was done. -/
  handed : List (Dict Json)

/-- Work on an item. -/
abbrev Work (α : Type) := Action Desk α

namespace Work

variable {α : Type}

/-- Asks the store. -/
def store (x : Action Store α) : Work α :=
  Action.zoom Desk.store (fun s d => { d with store := s }) x

/-- The item. -/
def item : Work Item := do return (← .get).item

/-- Changes the item. -/
def modifyItem (f : Item → Item) : Work Unit := .modify fun d => { d with item := f d.item }

/-- Puts an item on a desk and works on it. -/
def on (i : Item) (x : Work α) : Action Store (α × Desk) :=
  .of fun s =>
    match x.run ⟨s, i, [], []⟩ with
    | (.ok a, d) => (.ok (a, d), d.store)
    | (.error e, d) => (.error e, d.store)

end Work

/-- The result of checking a save against the locks. -/
inductive Check where
  /-- The locks do not apply. -/
  | unrestricted
  /-- No locked column is changed. -/
  | accepted
deriving DecidableEq, Repr

/-- The columns for which a save was refused. -/
structure Rejection where
  columns : List String
deriving DecidableEq

namespace Rejection

/-- The wording of a rejection. -/
def message (r : Rejection) : String := Failure.rejectionMessage r.columns

end Rejection

namespace Rulebook

/-- The schema of an item's kind. -/
def schemaOf (b : Rulebook) (i : Item) : Schema := b.registry i.key.kind

/-- Whether an item is a copy of blueprint content. -/
def isCopy (b : Rulebook) (i : Item) : Bool := i.migrationId.any b.settings.marks

/-- Whether a save is neither checked nor tracked: imports, saves marked so, and all but copies. -/
def skips (b : Rulebook) (c : Context) (i : Item) : Bool :=
  c.isImport || c.untracked || !b.isCopy i

/-- The locks of the blueprint content that a copy was made from; they are kept with the item. -/
def restrictionsInForce (c : Context) : Work Restrictions := do
  let i ← Work.item
  match i.childRestrictions with
  | some r => return r
  | none =>
    let found ← match i.migrationId, c.migration with
      | none, _ => pure none
      | some id, some m => pure (m.find? id)
      | some id, none => Option.map MasterTag.restrictions <$> Work.store (Store.masterTag? id)
    let r := found.getD Restrictions.none
    Work.modifyItem fun i => { i with childRestrictions := some r }
    return r

/-- What the given locks say about a schema. -/
def answersScope (r : Restrictions) (s : Schema) : Scope → Bool
  | .all => s.categories.all r.isLocked
  | .any => s.categories.any r.isLocked
  | .only l => r.isOn l

/-- Whether editing a copy is restricted in a scope. The lock of everything answers for all
scopes; where no lock was ever set, none is. -/
def isRestricted (b : Rulebook) (c : Context) (scope : Scope) : Work Bool := do
  let i ← Work.item
  if !b.isCopy i then return false
  let r ← restrictionsInForce c
  return !r.isEmpty && (r.locksEverything || answersScope r (b.schemaOf i) scope)

/-- The pending columns among the given ones. -/
def pendingWithin (i : Item) (columns : List String) : List String :=
  i.pending.keys.filter fun k => decide (k ∈ columns)

/-- The pending columns of locked categories, each once. The locks are only looked up when a
column of some category is pending. -/
def lockedColumns (c : Context) : List (Category × List String) → List String → Work (List String)
  | [], acc => return acc
  | (category, columns) :: rest, acc => do
    let changed := pendingWithin (← Work.item) columns
    if changed.isEmpty then lockedColumns c rest acc
    else
      let r ← restrictionsInForce c
      lockedColumns c rest (if r.isLocked category then Schema.addColumns acc changed else acc)

/-- Checks the pending changes of an item against the locks. -/
def check (b : Rulebook) (c : Context) : Work (Check ⊕ Rejection) := do
  let i ← Work.item
  if i.isNew || b.skips c i || b.settings.exempt i.key.kind then return .inl .unrestricted
  let locked ← lockedColumns c (b.schemaOf i).entries []
  return if locked.isEmpty then .inl .accepted else .inr ⟨locked⟩

/-- What is told about the locks of an item in a course of the given role. -/
def summary (b : Rulebook) (c : Context) (role : CourseRole) : Work Summary := do
  let i ← Work.item
  match role with
  | .master => return (i.masterRestrictions.map Summary.master).getD Summary.none
  | .child =>
    if !b.isCopy i then return Summary.none
    let restricted ← b.isRestricted c .any
    return Summary.child restricted (← restrictionsInForce c)

end Rulebook

end CourseBlueprint
