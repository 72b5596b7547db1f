import CourseBlueprint.Save
import CourseBlueprint.Settings

/-!
# Reports

A `Report` is what a command answers: the rows it is about, what it found out, and messages for the
reader. Parts that a command does not speak of are empty or absent.
-/

namespace CourseBlueprint

/-- How a message is meant. -/
inductive Level where
  | info
  | success
  | warning
  | error
deriving DecidableEq, Repr

/-- All levels. -/
def Level.all : List Level := [info, success, warning, error]

/-- The name of a level. -/
def Level.name : Level → String
  | info => "info"
  | success => "success"
  | warning => "warning"
  | error => "error"

/-- A sentence for the reader. -/
structure Message where
  level : Level
  content : String
deriving DecidableEq

/-- The columns of a kind by category. -/
structure SchemaListing where
  kind : Kind
  columns : List (Category × List String)
deriving DecidableEq

/-- What a command answers. -/
structure Report where
  templates : List Template := []
  subscriptions : List Subscription := []
  masterTags : List MasterTag := []
  childTags : List ChildTag := []
  /-- The categories that an import would leave alone. -/
  kept : Option (List Category) := none
  summary : Option Summary := none
  save : Option SaveReport := none
  rejected : Option Rejection := none
  schemas : List SchemaListing := []
  config : Option Config := none
  messages : List Message := []
deriving DecidableEq

namespace Report

/-- A report without any part. -/
def empty : Report := {}

instance : Inhabited Report := ⟨empty⟩

/-- The report with a message at its end. -/
def say (r : Report) (level : Level) (content : String) : Report :=
  { r with messages := r.messages ++ [⟨level, content⟩] }

end Report

end CourseBlueprint
