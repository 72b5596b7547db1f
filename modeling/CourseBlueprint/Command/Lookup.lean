import CourseBlueprint.Report
import CourseBlueprint.Text.Style

/-!
# What commands look up

Rows that a command cannot do without. A row that is missing is a failure that names it.
-/

namespace CourseBlueprint.Command

/-- The template of a course that must be a blueprint. -/
def templateOf (course : Uuid) : Action Store Template := do
  Result.ofOption (.noTemplateOf course) (← Store.templateOf? course)

/-- The template with an identifier that must be one. -/
def template (id : Uuid) : Action Store Template := do
  Result.ofOption (.noTemplate id) (← Store.template? id)

/-- The subscription with an identifier that must be one. -/
def subscription (id : Uuid) : Action Store Subscription := do
  Result.ofOption (.noSubscription id) (← Store.subscription? id)

/-- The child tag of content that must be a copy. -/
def copyTag (content : ContentKey) : Action Store ChildTag := do
  Result.ofOption (.notACopy content) (← Store.childTag? content)

/-- The child tag of a copy that was just saved. -/
def savedTag (content : ContentKey) : Action Store ChildTag := do
  Result.ofOption (.untracked content) (← Store.childTag? content)

/-- The item of a copy, of which nothing but the tag is known. -/
def copyItem (tag : ChildTag) (attributes : Dict Json) : Item :=
  { Item.persisted tag.content attributes with migrationId := tag.migrationId }

end CourseBlueprint.Command
