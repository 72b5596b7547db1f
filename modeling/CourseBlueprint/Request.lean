import CourseBlueprint.Command.Edit
import CourseBlueprint.Command.Enrollment
import CourseBlueprint.Command.Inspection
import CourseBlueprint.Command.Sync

/-!
# Requests

Everything that a user can ask for. A request is answered on a store by the rules of a deployment:
its assignments are read before anything else is done.
-/

namespace CourseBlueprint

/-- What a user can ask for. -/
inductive Request where
  /-- Make a course a blueprint. -/
  | makeBlueprint (course : Uuid)
  /-- Let a course follow a blueprint course. -/
  | subscribe (master child : Uuid)
  /-- Bring blueprint content to a child course. -/
  | sync (subscription : Uuid) (master : ContentKey) (assignments : List String)
  /-- Set locks of blueprint content on or off. -/
  | setLocks (course : Uuid) (content : ContentKey) (locks : List Lock) (on : Bool)
  /-- Show the locks of blueprint content. -/
  | showContent (course : Uuid) (content : ContentKey)
  /-- Show the locks of a copy. -/
  | inspect (content : ContentKey)
  /-- Edit a copy. -/
  | edit (content : ContentKey) (assignments : List String) (delete system : Bool)
  /-- List the copies that were changed. -/
  | status (subscription : Uuid)
  /-- Show what the next sync would leave alone. -/
  | preview (content : ContentKey)
  /-- List the columns of one kind or of all. -/
  | listSchemas (kind? : Option Kind)
  /-- Show the configuration. -/
  | showConfig
deriving DecidableEq

namespace Request

/-- Answers a request. -/
def run (b : Rulebook) : Request → Action Store Report
  | makeBlueprint course => Command.makeBlueprint course
  | subscribe master child => Command.subscribe master child
  | sync subscription master assignments => do
    let assignments ← Assignment.ofTexts assignments
    Command.sync b subscription master assignments
  | setLocks course content locks on => Command.setLocks b course content locks on
  | showContent course content => Command.showContent b course content
  | inspect content => Command.inspect b content
  | edit content assignments delete system => do
    let assignments ← Assignment.ofTexts assignments
    Command.edit b content ⟨assignments, delete, system⟩
  | status subscription => Command.status subscription
  | preview content => Command.preview b content
  | listSchemas kind? => return Command.listSchemas b kind?
  | showConfig => return { config := some b.config }

end Request

end CourseBlueprint
