import CourseBlueprint.Store.Directory
import CourseBlueprint.Store.Memory

/-!
# The store

A `Store` holds the tables, in memory or in a data directory, and supplies what is new: identifiers
and points in time. The operations on rows are the same for both places.
-/

namespace CourseBlueprint

/-- Where the tables are. -/
inductive Place where
  | memory (m : Memory)
  | directory (d : Directory)

/-- New identifiers and readings of the clock, and how many of each were used. -/
structure Supply where
  ids : Nat → Uuid
  times : Nat → Timestamp
  idsUsed : Nat
  timesUsed : Nat

/-- The tables, and what is new. -/
structure Store where
  place : Place
  supply : Supply

namespace Store

/-- A store in memory without rows. -/
def inMemory (supply : Supply) : Store := ⟨.memory .empty, supply⟩

/-- The store of a data directory. -/
def inDirectory (d : Directory) (supply : Supply) : Store := ⟨.directory d, supply⟩

/-- The data directory of a store that has one. -/
def directory (s : Store) : Option Directory :=
  match s.place with
  | .directory d => some d
  | .memory _ => none

variable {α : Type}

/-- A new identifier. -/
def newId : Action Store Uuid := do
  let s := (← .get).supply
  .modify fun st => { st with supply := { s with idsUsed := s.idsUsed + 1 } }
  return s.ids s.idsUsed

/-- The time. -/
def now : Action Store Timestamp := do
  let s := (← .get).supply
  .modify fun st => { st with supply := { s with timesUsed := s.timesUsed + 1 } }
  return s.times s.timesUsed

/-- Works on the tables where they are. -/
def onPlace (inMemory : Action Memory α) (inDirectory : Action Directory α) : Action Store α :=
  .of fun s =>
    match s.place with
    | .memory m =>
      let (r, m') := inMemory.run m
      (r, { s with place := .memory m' })
    | .directory d =>
      let (r, d') := inDirectory.run d
      (r, { s with place := .directory d' })

/-! ## Rows -/

/-- All templates. -/
def templates : Action Store (List Template) := onPlace Memory.templates Directory.templates

/-- All subscriptions. -/
def subscriptions : Action Store (List Subscription) :=
  onPlace Memory.subscriptions Directory.subscriptions

/-- All master tags. -/
def masterTags : Action Store (List MasterTag) := onPlace Memory.masterTags Directory.masterTags

/-- The master tags with the given migration identifiers. -/
def masterTagsWith (ids : List String) : Action Store (List MasterTag) :=
  onPlace (Memory.masterTagsOf ids) (Directory.masterTagsOf ids)

/-- All child tags. -/
def childTags : Action Store (List ChildTag) := onPlace Memory.childTags Directory.childTags

/-- The child tag of a piece of content. -/
def childTag? (content : ContentKey) : Action Store (Option ChildTag) :=
  onPlace (Memory.childTag? content) (Directory.childTag? content)

/-- Adds a template unless its course has one, and answers the one that is there. -/
def insertTemplate (t : Template) : Action Store Template :=
  onPlace (Memory.insertTemplate t) (Directory.insertTemplate t)

/-- Adds a subscription unless there is one of the same pairing, and answers the one there is. -/
def insertSubscription (s : Subscription) : Action Store Subscription :=
  onPlace (Memory.insertSubscription s) (Directory.insertSubscription s)

/-- Adds a master tag, or replaces the one with the same migration identifier. -/
def saveMasterTag (t : MasterTag) : Action Store Unit :=
  onPlace (Memory.upsertMasterTag t) (Directory.upsertMasterTag t)

/-- Adds a child tag unless its content has one, and answers the one that is there. -/
def insertChildTag (t : ChildTag) : Action Store ChildTag :=
  onPlace (Memory.insertChildTag t) (Directory.insertChildTag t)

/-- Works on the child tag of a piece of content, and keeps the tag it gives back, if it does,
stamped with the time. -/
def updateChildTag (content : ContentKey) (update : ChildTag → α × Option ChildTag) :
    Action Store (Option α) := do
  let time ← now
  let stamped : ChildTag → α × Option ChildTag := fun t =>
    let (a, changed) := update t
    (a, changed.map fun t' => { t' with updatedAt := time })
  onPlace (Memory.updateChildTag content stamped) (Directory.updateChildTag content stamped)

end Store

end CourseBlueprint
