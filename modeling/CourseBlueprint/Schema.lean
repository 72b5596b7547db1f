import CourseBlueprint.Category
import CourseBlueprint.Failure
import CourseBlueprint.NameSet

/-!
# Schemas

The `Schema` of a kind of content says which columns each registered category governs. A `Registry`
has a schema for every kind; it grows by `restrict`, which adds columns to a category of a kind and
never repeats one. `Registry.builtin` is the schema of every kind before any is configured. A
`Registry.Step` is one step of building a registry, which fails without an effect if it names no
category.
-/

namespace CourseBlueprint

/-- The columns of each registered category. -/
abbrev Schema := PerCategory (Option (List String))

namespace Schema

/-- No category is registered. -/
def none : Schema := PerCategory.const Option.none

/-- The registered categories and their columns, in order. -/
def entries (s : Schema) : List (Category × List String) :=
  Category.all.filterMap fun c => (s.get c).map fun columns => (c, columns)

/-- The registered categories, in order. -/
def categories (s : Schema) : List Category := s.entries.map Prod.fst

/-- The columns of a category; none if it is not registered. -/
def columns (s : Schema) (c : Category) : List String := (s.get c).getD []

/-- The columns of all categories. -/
def allColumns (s : Schema) : NameSet := .ofList (s.entries.flatMap Prod.snd)

/-- Whether no category is registered. -/
def isEmpty (s : Schema) : Bool := s.entries.isEmpty

/-- Adds those columns to a list that it does not hold yet. -/
def addColumns (old new : List String) : List String :=
  new.foldl (fun acc column => if column ∈ acc then acc else acc ++ [column]) old

/-- Registers a category and adds columns to it. -/
def restrict (s : Schema) (c : Category) (new : List String) : Schema :=
  s.set c (some (addColumns (s.columns c) new))

/-- Registers several categories. -/
def restrictAll (s : Schema) (es : List (Category × List String)) : Schema :=
  es.foldl (fun s e => s.restrict e.1 e.2) s

end Schema

/-- The schema of every kind. -/
abbrev Registry := Kind → Schema

namespace Registry

/-- No kind has a registered category. -/
def empty : Registry := fun _ => Schema.none

/-- Registers a category of a kind and adds columns to it. -/
def restrict (r : Registry) (k : Kind) (c : Category) (new : List String) : Registry :=
  fun k' => if k' = k then (r k).restrict c new else r k'

/-- Registers several categories of a kind. -/
def restrictAll (r : Registry) (k : Kind) (es : List (Category × List String)) : Registry :=
  fun k' => if k' = k then (r k).restrictAll es else r k'

/-- The columns that everything handed in and graded has. -/
def assignmentColumns : List (Category × List String) :=
  [(.settings, ["assignment_group_id", "grading_type", "omit_from_final_grade", "submission_types",
      "group_category", "group_category_id", "grade_group_students_individually", "peer_reviews",
      "moderated_grading", "peer_reviews_due_at", "allowed_attempts"]),
   (.dueDates, ["due_at"]),
   (.availabilityDates, ["lock_at", "unlock_at"]),
   (.points, ["points_possible"])]

/-- The columns of each kind. -/
def builtinColumns : Kind → List (Category × List String)
  | .assignment => (.content, ["title", "description"]) :: assignmentColumns
  | .attachment =>
    [(.content, ["display_name", "uuid", "folder_id"]),
     (.availabilityDates, ["lock_at", "unlock_at", "locked"])]
  | .questionBank => [(.content, ["title"])]
  | .calendarEvent =>
    [(.content, ["title", "description"]),
     (.settings, ["location_name", "location_address", "start_at", "end_at"])]
  | .externalTool =>
    [(.content, ["name", "description"]),
     (.settings, ["url", "domain", "settings", "consumer_key", "shared_secret"])]
  | .discussionTopic =>
    [(.content, ["title", "message"]),
     (.settings, ["require_initial_post", "discussion_type", "podcast_enabled",
        "podcast_has_student_posts", "allow_rating", "only_graders_can_rate"]),
     (.availabilityDates, ["delayed_post_at", "lock_at"])]
  | .folder => []
  | .lineItem => [(.content, ["label", "tag"]), (.points, ["score_maximum"])]
  | .quiz =>
    [(.content, ["title", "description", "quiz_data"]),
     (.settings, ["quiz_type", "time_limit", "shuffle_answers", "show_correct_answers",
        "scoring_policy", "allowed_attempts", "access_code", "one_question_at_a_time"]),
     (.dueDates, ["due_at"]),
     (.availabilityDates, ["lock_at", "unlock_at"]),
     (.points, ["points_possible"])]
  | .wikiPage =>
    [(.content, ["body", "title"]),
     (.settings, ["editing_roles"]),
     (.availabilityDates, ["publish_at"])]

/-- The schema of every kind before any column is configured. -/
def builtin : Registry := fun k => Schema.none.restrictAll (builtinColumns k)

/-! ## Building in steps -/

/-- One step of building a registry. -/
inductive Step where
  /-- Adds columns under a lock, which must be that of a category. -/
  | restrict (k : Kind) (l : Lock) (columns : List String)
  /-- Adds columns under a lock given by name. -/
  | restrictNamed (k : Kind) (name : String) (columns : List String)
  /-- Adds the columns of everything handed in and graded. -/
  | assignmentColumns (k : Kind)

/-- Adds columns under a lock, which must be that of a category. -/
def restrictLock (r : Registry) (k : Kind) (l : Lock) (new : List String) : Result Registry :=
  match l with
  | .only c => .ok (r.restrict k c new)
  | .everything => .error .columnsForEverything

/-- Adds columns under a lock given by name. -/
def restrictNamed (r : Registry) (k : Kind) (name : String) (new : List String) :
    Result Registry :=
  match Lock.ofName? name with
  | some l => r.restrictLock k l new
  | none => .error (.unknownLock name)

/-- The registry after a step. -/
def Step.apply (r : Registry) : Step → Result Registry
  | .restrict k l new => r.restrictLock k l new
  | .restrictNamed k name new => r.restrictNamed k name new
  | .assignmentColumns k => .ok (r.restrictAll k Registry.assignmentColumns)

/-- The registry after several steps, those that fail left out. -/
def build (r : Registry) (steps : List Step) : Registry :=
  steps.foldl (fun r s => match s.apply r with
    | .ok r' => r'
    | .error _ => r) r

end Registry

end CourseBlueprint
