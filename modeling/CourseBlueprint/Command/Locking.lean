import CourseBlueprint.Command.Lookup

/-!
# Locking

Locks are set on the master tag of blueprint content, which is made if there is none.
-/

namespace CourseBlueprint.Command

/-- The master tag of content of a blueprint; a new one is not stored yet. -/
def masterTagOrNew (b : Rulebook) (t : Template) (content : ContentKey) :
    Action Store MasterTag := do
  let migrationId := t.migrationId b.settings.marker content
  match ← Store.masterTag? migrationId with
  | some tag => return tag
  | none => Store.newMasterTag t content migrationId

/-- A warning for a category without columns. -/
def lockWarning? (s : Schema) (kind : Kind) : Lock → Option Message
  | .only c =>
    if (s.columns c).isEmpty then
      some ⟨.warning, c.name ++ " governs no " ++ kind.name ++ " columns"⟩
    else none
  | .everything => none

/-- Sets locks of blueprint content. -/
def setLocks (b : Rulebook) (course : Uuid) (content : ContentKey) (locks : List Lock) (on : Bool) :
    Action Store Report := do
  if locks.isEmpty then .fail .noLockNamed
  if !content.kind.allowedInBlueprint then .fail (.notLockable content.kind)
  let t ← templateOf course
  let old ← masterTagOrNew b t content
  let time ← Store.now
  let tag := { old with
    restrictions := locks.foldl (fun r l => r.set l on) old.restrictions
    updatedAt := time }
  Store.saveMasterTag tag
  let warnings := locks.filterMap (lockWarning? (b.registry content.kind) content.kind)
  return Report.say { masterTags := [tag], messages := warnings } .success
    ((if on then "Locked " else "Unlocked ") ++ Text.join (locks.map Lock.name) ++ " on " ++
      content.text)

end CourseBlueprint.Command
