import CourseBlueprint.Tag

/-!
# Tables

The four tables of a store, and what can be done to the rows of one: adding a row unless there is
one like it, and replacing the first row like it.
-/

namespace CourseBlueprint

/-- The rows of a store. -/
structure Tables where
  templates : List Template
  subscriptions : List Subscription
  masterTags : List MasterTag
  childTags : List ChildTag
deriving DecidableEq

namespace Tables

/-- No rows. -/
def empty : Tables := ⟨[], [], [], []⟩

variable {α : Type}

/-- Replaces the first row that passes a test, if any. -/
def replaceFirst (test : α → Bool) (row : α) : List α → List α
  | [] => []
  | r :: rest => if test r then row :: rest else r :: replaceFirst test row rest

/-- Replaces the first row that passes a test, or adds the row at the end. -/
def upsert (test : α → Bool) (row : α) (rows : List α) : List α :=
  if rows.any test then replaceFirst test row rows else rows ++ [row]

end Tables

end CourseBlueprint
