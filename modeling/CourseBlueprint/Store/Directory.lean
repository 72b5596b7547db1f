import CourseBlueprint.Action
import CourseBlueprint.Dict
import CourseBlueprint.Store.Tables
import CourseBlueprint.Tag.Rows

/-!
# Tables in a data directory

A `Directory` is a data directory as it stands: each table is the text of one file. A table whose
file is missing has no rows; one that cannot be read or decoded makes every operation on it fail,
and no operation writes it. Writing first takes the lock file, which makes it and the directory.
-/

namespace CourseBlueprint

/-- What a name in a directory stands for. -/
inductive Entry where
  | file (text : String)
  | folder
deriving DecidableEq

/-- What is found at the path of a data directory. -/
inductive Directory where
  /-- No folder; `made` is what is in it once it is made, if it can be made. -/
  | missing (made : Option (Dict Entry))
  /-- No folder, after it could not be made. -/
  | refused
  | present (entries : Dict Entry)

/-- The file and the rows of one table. -/
structure Table (α : Type) where
  file : String
  format : RowFormat α

namespace Directory

def templateTable : Table Template := ⟨"templates.json", Template.format⟩
def subscriptionTable : Table Subscription := ⟨"subscriptions.json", Subscription.format⟩
def masterTagTable : Table MasterTag := ⟨"master_tags.json", MasterTag.format⟩
def childTagTable : Table ChildTag := ⟨"child_tags.json", ChildTag.format⟩

/-- The file that is held while a table is written. -/
def lockFile : String := ".lock"

variable {α : Type}

/-- The text of a file; none if there is no such file. -/
def text? (d : Directory) (name : String) : Result (Option String) :=
  match d with
  | present entries =>
    match entries.get? name with
    | none => .ok none
    | some (.file text) => .ok (some text)
    | some .folder => .error .unreadable
  | _ => .ok none

/-- The rows of a table. -/
def rows (table : Table α) : Action Directory (List α) := do
  match ← (← .get).text? table.file with
  | none => return []
  | some text => Result.ofOption .undecodable (table.format.decode? text)

/-- Writes a file, in a directory that is there. -/
def put (d : Directory) (name : String) (text : String) : Directory :=
  match d with
  | present entries => present (entries.put name (.file text))
  | d => d

/-- Writes a table. -/
def write (table : Table α) (rows : List α) : Action Directory Unit :=
  .modify fun d => d.put table.file (table.format.encode rows)

/-- Makes the directory where it is missing. -/
def make : Action Directory Unit := do
  match ← .get with
  | present _ => return ()
  | missing (some entries) => .modify fun _ => present entries
  | _ =>
    .modify fun _ => refused
    .fail .unreadable

@[simp] theorem run_make_present (entries : Dict Entry) :
    make.run (present entries) = (.ok (), present entries) := rfl

@[simp] theorem run_make_missing (entries : Dict Entry) :
    make.run (missing (some entries)) = (.ok (), present entries) := rfl

/-- Takes the lock file, after making the directory and the file where they are missing. -/
def takeLock : Action Directory Unit := do
  make
  match ← (← .get).text? lockFile with
  | some _ => return ()
  | none => .modify fun d => d.put lockFile ""

/-- Adds a row to a table unless one passes a test, and answers the one that is there. -/
def insertUnless (table : Table α) (test : α → Bool) (row : α) : Action Directory α := do
  takeLock
  let old ← rows table
  match old.find? test with
  | some found => return found
  | none =>
    write table (old ++ [row])
    return row

/-- All templates. -/
def templates : Action Directory (List Template) := rows templateTable

/-- All subscriptions. -/
def subscriptions : Action Directory (List Subscription) := rows subscriptionTable

/-- All child tags. -/
def childTags : Action Directory (List ChildTag) := rows childTagTable

/-- All master tags. -/
def masterTags : Action Directory (List MasterTag) := rows masterTagTable

/-- The master tags with the given migration identifiers, in the order of the table. -/
def masterTagsOf (ids : List String) : Action Directory (List MasterTag) := do
  return (← masterTags).filter fun t => decide (t.migrationId ∈ ids)

/-- The child tag of a piece of content. -/
def childTag? (content : ContentKey) : Action Directory (Option ChildTag) := do
  return (← childTags).find? fun t => t.content = content

/-- Adds a template unless its course has one, and answers the one that is there. -/
def insertTemplate (t : Template) : Action Directory Template :=
  insertUnless templateTable (fun t' => t'.courseId = t.courseId) t

/-- Adds a subscription unless there is one of the same pairing, and answers the one there is. -/
def insertSubscription (s : Subscription) : Action Directory Subscription :=
  insertUnless subscriptionTable (fun s' => s'.samePairing s) s

/-- Adds a master tag, or replaces the first with the same migration identifier. -/
def upsertMasterTag (t : MasterTag) : Action Directory Unit := do
  takeLock
  let old ← masterTags
  write masterTagTable (Tables.upsert (fun t' => t'.migrationId = t.migrationId) t old)

/-- Adds a child tag unless its content has one, and answers the one that is there. -/
def insertChildTag (t : ChildTag) : Action Directory ChildTag :=
  insertUnless childTagTable (fun t' => t'.content = t.content) t

/-- Works on the child tag of a piece of content, and keeps the tag it gives back, if it does. -/
def updateChildTag (content : ContentKey) (update : ChildTag → α × Option ChildTag) :
    Action Directory (Option α) := do
  takeLock
  let old ← childTags
  match old.find? fun t => t.content = content with
  | none => return none
  | some tag =>
    let (a, changed) := update tag
    match changed with
    | none => return some a
    | some tag' =>
      write childTagTable (Tables.replaceFirst (fun t => t.content = content) tag' old)
      return some a

end Directory

end CourseBlueprint
