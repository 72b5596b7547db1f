import CourseBlueprint.Action
import CourseBlueprint.Store.Tables

/-!
# Tables in memory

A `Memory` keeps the four tables as they are, and a list of all look-ups of master tags by migration
identifier. It can be told to refuse writes; a refused write leaves everything as it was.
-/

namespace CourseBlueprint

/-- Tables that are kept in memory. -/
structure Memory where
  tables : Tables
  writesFail : Bool
  /-- The migration identifiers of every look-up of master tags, in order. -/
  lookups : List (List String)

namespace Memory

/-- No rows, no look-ups, and writes are taken. -/
def empty : Memory := ⟨.empty, false, []⟩

/-- Fails if writes are refused. -/
def checkWritable : Action Memory Unit := do
  if (← .get).writesFail then .fail .writeRefused

/-- Changes the tables. -/
def modifyTables (f : Tables → Tables) : Action Memory Unit :=
  .modify fun m => { m with tables := f m.tables }

/-- All templates. -/
def templates : Action Memory (List Template) := do return (← .get).tables.templates

/-- All subscriptions. -/
def subscriptions : Action Memory (List Subscription) := do return (← .get).tables.subscriptions

/-- All child tags. -/
def childTags : Action Memory (List ChildTag) := do return (← .get).tables.childTags

/-- All master tags. -/
def masterTags : Action Memory (List MasterTag) := do return (← .get).tables.masterTags

/-- The master tags with the given migration identifiers, in the order asked for. -/
def masterTagsOf (ids : List String) : Action Memory (List MasterTag) := do
  .modify fun m => { m with lookups := m.lookups ++ [ids] }
  let tags := (← .get).tables.masterTags
  return ids.filterMap fun id => tags.find? fun t => t.migrationId = id

/-- The child tag of a piece of content. -/
def childTag? (content : ContentKey) : Action Memory (Option ChildTag) := do
  return (← childTags).find? fun t => t.content = content

/-- Adds a template unless its course has one, and answers the one that is there. -/
def insertTemplate (t : Template) : Action Memory Template := do
  checkWritable
  match (← templates).find? fun t' => t'.courseId = t.courseId with
  | some found => return found
  | none =>
    modifyTables fun ts => { ts with templates := ts.templates ++ [t] }
    return t

/-- Adds a subscription unless there is one of the same pairing, and answers the one there is. -/
def insertSubscription (s : Subscription) : Action Memory Subscription := do
  checkWritable
  match (← subscriptions).find? fun s' => s'.samePairing s with
  | some found => return found
  | none =>
    modifyTables fun ts => { ts with subscriptions := ts.subscriptions ++ [s] }
    return s

/-- Adds a master tag, or replaces the one with the same migration identifier. -/
def upsertMasterTag (t : MasterTag) : Action Memory Unit := do
  checkWritable
  modifyTables fun ts =>
    { ts with
      masterTags := Tables.upsert (fun t' => t'.migrationId = t.migrationId) t ts.masterTags }

/-- Adds a child tag unless its content has one, and answers the one that is there. -/
def insertChildTag (t : ChildTag) : Action Memory ChildTag := do
  checkWritable
  match ← childTag? t.content with
  | some found => return found
  | none =>
    modifyTables fun ts => { ts with childTags := ts.childTags ++ [t] }
    return t

/-- Works on the child tag of a piece of content, and keeps the tag it gives back, if it does. -/
def updateChildTag {α : Type} (content : ContentKey) (update : ChildTag → α × Option ChildTag) :
    Action Memory (Option α) := do
  match ← childTag? content with
  | none => return none
  | some tag =>
    let (a, changed) := update tag
    match changed with
    | none => return some a
    | some tag' =>
      checkWritable
      modifyTables fun ts =>
        { ts with
          childTags := Tables.replaceFirst (fun t => t.content = content) tag' ts.childTags }
      return some a

end Memory

end CourseBlueprint
