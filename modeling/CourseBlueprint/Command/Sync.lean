import CourseBlueprint.Assignment
import CourseBlueprint.Command.Locking

/-!
# Syncing

A sync brings a piece of blueprint content to a child course. The first one makes the copy; later
ones write the blueprint's values over it, as far as reconciliation with the child course lets them.
-/

namespace CourseBlueprint.Command

/-- The stored master tag of content of a blueprint, made without restrictions if there is none. -/
def trackedMasterTag (b : Rulebook) (t : Template) (content : ContentKey) :
    Action Store MasterTag := do
  let migrationId := t.migrationId b.settings.marker content
  match ← Store.masterTag? migrationId with
  | some tag => return tag
  | none =>
    let tag ← Store.newMasterTag t content migrationId
    Store.saveMasterTag tag
    return tag

/-! ## The first sync -/

/-- The copy as it is first saved. -/
def newCopy (key : ContentKey) (migrationId : String) (assignments : List Assignment) : Item :=
  let copy := { Item.new key with migrationId := some migrationId }
  (copy.set copy.stateColumn (.string Item.activeState)).setAll assignments

/-- Saves an item as an import does. -/
def saveImported (b : Rulebook) (m : Migration) (i : Item) : Action Store (SaveReport × Item) := do
  let (outcome, desk) ← Work.on i (b.save (.importing m) .noop)
  match outcome with
  | .saved report => return (report, desk.item)
  | .rejected r => .fail (.importRejected r.columns)

/-- Makes a copy of blueprint content. -/
def createCopy (b : Rulebook) (m : Migration) (kind : Kind) (migrationId : String)
    (assignments : List Assignment) : Action Store ChildTag := do
  let key : ContentKey := ⟨kind, ← Store.newId⟩
  let _ ← saveImported b m (newCopy key migrationId assignments)
  savedTag key

/-! ## Later syncs -/

/-- The copy before a sync, of which only a deletion is known. -/
def copyBefore (tag : ChildTag) : Item :=
  copyItem tag (if tag.isManuallyDeleted then
    (∅ : Dict Json).put tag.content.kind.stateColumn (.string Item.deletedState) else ∅)

/-- The copy as the blueprint would have it. -/
def copyWanted (tag : ChildTag) (assignments : List Assignment) : Item :=
  let copy := copyBefore tag
  (if tag.isManuallyDeleted then copy.set copy.stateColumn (.string Item.activeState)
    else copy).setAll assignments

/-- The columns that a sync is to write. -/
def requestedColumns (tag : ChildTag) (assignments : List Assignment) : List String :=
  assignments.map Prod.fst ++
    if tag.isManuallyDeleted then [tag.content.kind.stateColumn] else []

/-- The columns that a sync was to write and did not. -/
def keptColumns (requested : List String) (saved : Item) : List String :=
  requested.filter fun column => !saved.saved.contains column

/-- How a later sync went. -/
def resyncMessage (target : String) (kept : List String) : Reconciliation → Message
  | .noOverlap => ⟨.success, "Re-synced " ++ target⟩
  | .partiallyOverwritten overwritten preserved =>
    let done := "Re-synced " ++ target ++ ", overwriting the child's " ++
      Text.join overwritten.toList
    if preserved.isEmpty then ⟨.success, done⟩
    else ⟨.warning, done ++ " and keeping its " ++ Text.join preserved.toList⟩
  | .fullyPreserved =>
    ⟨.warning, "Re-synced " ++ target ++ ", keeping the child's " ++ Text.join kept⟩

/-- Brings blueprint content to the child course of a subscription. -/
def sync (b : Rulebook) (subscriptionId : Uuid) (master : ContentKey)
    (assignments : List Assignment) : Action Store Report := do
  if !master.kind.allowedInBlueprint then .fail (.notSynced master.kind)
  let s ← subscription subscriptionId
  let t ← template s.templateId
  let masterTag ← trackedMasterTag b t master
  let migrationId := t.migrationId b.settings.marker master
  let existing := (← Store.childTagsOf s.id).find? fun tag => tag.migrationId = some migrationId
  let m ← Migration.load s
  match existing with
  | none =>
    let tag ← createCopy b m master.kind migrationId assignments
    return Report.say { masterTags := [masterTag], childTags := [tag] } .success
      ("Synced " ++ master.text ++ " to course " ++ s.childCourseId.hyphenated ++ " as " ++
        tag.content.text)
  | some existing =>
    let (report, saved) ← saveImported b m (copyWanted existing assignments)
    let kept := keptColumns (requestedColumns existing assignments) saved
    let target := existing.content.text ++ " in course " ++ s.childCourseId.hyphenated
    let tag ← savedTag existing.content
    return { masterTags := [masterTag], childTags := [tag], save := some report,
             messages := [resyncMessage target kept report.reconciliation] }

end CourseBlueprint.Command
