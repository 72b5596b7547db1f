import CourseBlueprint.Dict
import CourseBlueprint.Json.Value
import CourseBlueprint.Restrictions
import CourseBlueprint.Content

/-!
# Items

An `Item` is a piece of content on its way to being saved. It knows which attributes differ from
their values at the last save (`pending`) and which ones that save changed (`saved`). An attribute
that is absent counts as null. The locks that apply to the item can be kept with it.
-/

namespace CourseBlueprint

/-- The values of an attribute before and after. -/
structure Change where
  old : Json
  new : Json

/-- A piece of content with its attributes and their changes. -/
structure Item where
  key : ContentKey
  migrationId : Option String
  attributes : Dict Json
  /-- Whether it was never saved. -/
  isNew : Bool
  /-- The changes since the last save. -/
  pending : Dict Change
  /-- The changes that the last save wrote. -/
  saved : Dict Change
  /-- The content whose child tag records the changes, if it is another. -/
  owner : Option ContentKey
  /-- The locks of the content that a copy was made from, once looked up. -/
  childRestrictions : Option Restrictions
  /-- The locks of the item itself, once looked up for blueprint content. -/
  masterRestrictions : Option Restrictions

namespace Item

/-- What the state column of deleted content holds. -/
def deletedState : String := "deleted"

/-- What the state column of content in use holds. -/
def activeState : String := "active"

/-- An item that was never saved. -/
def new (key : ContentKey) : Item := ⟨key, none, ∅, true, ∅, ∅, none, none, none⟩

/-- An item that was saved with the given attributes. -/
def persisted (key : ContentKey) (attributes : Dict Json) : Item :=
  ⟨key, none, attributes, false, ∅, ∅, none, none, none⟩

/-- The column that says whether the item is active or deleted. -/
def stateColumn (i : Item) : String := i.key.kind.stateColumn

/-- The content whose child tag records the item's changes. -/
def tagOwner (i : Item) : ContentKey := i.owner.getD i.key

/-- The value of an attribute. -/
def value (i : Item) (column : String) : Json := (i.attributes.get? column).getD .null

/-- Whether the item is deleted. -/
def isDeleted (i : Item) : Bool :=
  match i.attributes.get? i.stateColumn with
  | some v => v.isText deletedState
  | none => false

/-- Gives an attribute a value. Giving it back its value at the last save takes the change back. -/
def set (i : Item) (column : String) (value : Json) : Item :=
  let current := i.value column
  if current.same value then i
  else
    let before := match i.pending.get? column with
      | some change => change.old
      | none => current
    { i with
      pending := if before.same value then i.pending.erase column
        else i.pending.put column ⟨before, value⟩
      attributes := i.attributes.put column value }

/-- Gives several attributes values, one after the other. -/
def setAll (i : Item) (assignments : List (String × Json)) : Item :=
  assignments.foldl (fun i a => i.set a.1 a.2) i

/-- Deletes the item by its state. -/
def markDeleted (i : Item) : Item := i.set i.stateColumn (.string deletedState)

/-- Takes back the pending change of one attribute. -/
def restoreOne (i : Item) (column : String) : Item :=
  match i.pending.get? column with
  | none => i
  | some change =>
    { i with
      pending := i.pending.erase column
      attributes := if change.old.isNull then i.attributes.erase column
        else i.attributes.put column change.old }

/-- Takes back the pending changes of several attributes. -/
def restore (i : Item) (attributes : List String) : Item := attributes.foldl restoreOne i

/-- What a save leaves: the pending changes are saved ones, and none is pending. -/
def changesApplied (i : Item) : Item := { i with saved := i.pending, pending := ∅, isNew := false }

end Item

end CourseBlueprint
