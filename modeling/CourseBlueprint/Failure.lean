import CourseBlueprint.Content

/-!
# Failures

Why an operation gives no answer, one constructor for each cause. `Failure.area` groups the causes
by what they concern, and `Failure.message` words them.
-/

namespace CourseBlueprint

/-- What a failure concerns. -/
inductive Failure.Area where
  | notFound
  | reading
  | decoding
  | store
  | configuration
  | argument
deriving DecidableEq, Repr

/-- Why an operation gives no answer. -/
inductive Failure where
  /-- The course has no blueprint template. -/
  | noTemplateOf (course : Uuid)
  /-- There is no template with the identifier. -/
  | noTemplate (id : Uuid)
  /-- There is no subscription with the identifier. -/
  | noSubscription (id : Uuid)
  /-- The content has no child tag. -/
  | notACopy (content : ContentKey)
  /-- A file of the data directory cannot be read or written. -/
  | unreadable
  /-- A text is not what it should decode to. -/
  | undecodable
  /-- The store takes no writes. -/
  | writeRefused
  /-- Writing the item itself failed. -/
  | notPersisted (reason : String)
  /-- An import tried to change locked columns. -/
  | importRejected (columns : List String)
  /-- A copy was saved and yet has no child tag. -/
  | untracked (content : ContentKey)
  /-- No place for the data directory is known. -/
  | noDataDirectory
  /-- No lock has the name. -/
  | unknownLock (name : String)
  /-- Columns belong to a category, and the lock of everything is none. -/
  | columnsForEverything
  /-- No kind has the name. -/
  | unknownKind (name : String)
  /-- The configuration file is malformed. -/
  | invalidConfigFile
  /-- Content of the kind is not copied by a sync. -/
  | notSynced (kind : Kind)
  /-- Content of the kind has no locks. -/
  | notLockable (kind : Kind)
  /-- A lock command names no lock. -/
  | noLockNamed
  /-- A course was to subscribe to itself. -/
  | subscribedToItself
  /-- An edit changes nothing. -/
  | nothingToChange
  /-- An assignment lacks the sign between column and value. -/
  | noAssignmentSign (input : String)
  /-- An assignment names no column. -/
  | noColumnName (input : String)
  /-- No scope has the name. -/
  | unknownScope (name : String)
  /-- No course role has the name. -/
  | unknownRole (name : String)
deriving DecidableEq

namespace Failure

/-- What a failure concerns. -/
def area : Failure → Area
  | noTemplateOf _ | noTemplate _ | noSubscription _ | notACopy _ => .notFound
  | unreadable => .reading
  | undecodable => .decoding
  | writeRefused | notPersisted _ | importRejected _ | untracked _ | noDataDirectory => .store
  | unknownLock _ | columnsForEverything | unknownKind _ | invalidConfigFile => .configuration
  | notSynced _ | notLockable _ | noLockNamed | subscribedToItself | nothingToChange
  | noAssignmentSign _ | noColumnName _ | unknownScope _ | unknownRole _ => .argument

/-- How the messages of an area start. -/
def Area.heading : Area → String
  | .notFound => "Not found: "
  | .reading => "IO error: "
  | .decoding => "Serialization error: "
  | .store => "Store error: "
  | .configuration => "Configuration error: "
  | .argument => "Invalid argument: "

/-- The refusal of a save that changes locked columns. -/
def rejectionMessage (columns : List String) : String :=
  "cannot change column(s): " ++ ", ".intercalate columns ++ " - locked by Master Course"

/-- What happened, without the heading of the area. -/
def detail : Failure → String
  | noTemplateOf course => "course " ++ course.hyphenated ++ " has no blueprint template"
  | noTemplate id => "template " ++ id.hyphenated
  | noSubscription id => "subscription " ++ id.hyphenated
  | notACopy content => content.text ++ " is not a synced blueprint copy"
  | unreadable => "a file of the data directory cannot be read or written"
  | undecodable => "malformed data"
  | writeRefused => "Simulated write error"
  | notPersisted reason => reason
  | importRejected columns => rejectionMessage columns
  | untracked content => "no child tag recorded for " ++ content.text
  | noDataDirectory => "could not determine a data directory; pass --data"
  | unknownLock name => "invalid restriction type: " ++ name
  | columnsForEverything => "columns cannot be registered under the \"all\" restriction"
  | unknownKind name => "unknown content kind: " ++ name
  | invalidConfigFile => "invalid configuration file: malformed"
  | notSynced kind => kind.name ++ " content is not synced through blueprints"
  | notLockable kind => kind.name ++ " content cannot be locked"
  | noLockNamed => "at least one restriction category is required"
  | subscribedToItself => "a blueprint course cannot subscribe to itself"
  | nothingToChange => "nothing to change"
  | noAssignmentSign input => "expected column=value, got '" ++ input ++ "'"
  | noColumnName input => "missing column name in '" ++ input ++ "'"
  | unknownScope name => "invalid edit type: " ++ name
  | unknownRole name => "invalid course role: " ++ name

/-- The wording of a failure. -/
def message (f : Failure) : String := f.area.heading ++ f.detail

end Failure

/-- A result, or why there is none. -/
abbrev Result (α : Type) := Except Failure α

namespace Result

/-- The value of an option, or the given failure. -/
def ofOption {α : Type} (f : Failure) : Option α → Result α
  | some a => .ok a
  | none => .error f

end Result

/-- The kind of a name. -/
def Kind.ofName (name : String) : Result Kind := .ofOption (.unknownKind name) (Kind.ofName? name)

end CourseBlueprint
