import CourseBlueprint.Content
import CourseBlueprint.NameSet
import CourseBlueprint.Restrictions
import CourseBlueprint.Timestamp
import CourseBlueprint.Uuid.Derived

/-!
# Templates, subscriptions and tags

A blueprint course has a `Template`; a child course follows it by a `Subscription`. Each piece of
blueprint content has a `MasterTag` with its restrictions, and each copy in a child course a
`ChildTag` with the columns that were changed there since the last sync. A copy and the blueprint
content it was made from share a migration identifier, which is derived from the template and that
content's key.
-/

namespace CourseBlueprint

/-- A blueprint course's record of being one. -/
structure Template where
  id : Uuid
  courseId : Uuid
  createdAt : Timestamp
deriving DecidableEq, Inhabited

/-- A child course's record of following a blueprint. -/
structure Subscription where
  id : Uuid
  templateId : Uuid
  childCourseId : Uuid
deriving DecidableEq, Inhabited

/-- The record of a piece of blueprint content. -/
structure MasterTag where
  id : Uuid
  templateId : Uuid
  content : ContentKey
  migrationId : String
  restrictions : Restrictions
  createdAt : Timestamp
  updatedAt : Timestamp
deriving DecidableEq

/-- The record of a copy in a child course. -/
structure ChildTag where
  id : Uuid
  subscriptionId : Uuid
  content : ContentKey
  migrationId : Option String
  /-- The columns changed in the child course since the last sync. -/
  changes : NameSet
  createdAt : Timestamp
  updatedAt : Timestamp
deriving DecidableEq

/-- Stands among the changes of a copy for its deletion in the child course. -/
def manuallyDeleted : String := "manually_deleted"

namespace Template

/-- The migration identifier shared by a piece of blueprint content and its copies. -/
def migrationId (t : Template) (marker : String) (content : ContentKey) : String :=
  marker ++ t.id.simple ++ "_" ++ (Uuid.derived t.id content.assetName).simple

end Template

namespace Subscription

/-- Whether two subscriptions join the same template and child course. -/
def samePairing (s t : Subscription) : Bool :=
  s.templateId = t.templateId && s.childCourseId = t.childCourseId

end Subscription

namespace ChildTag

/-- Whether the copy was deleted in the child course. -/
def isManuallyDeleted (t : ChildTag) : Bool := decide (manuallyDeleted ∈ t.changes)

/-- Those of the given columns that were changed, in their order. -/
def changesWithin (t : ChildTag) (columns : List String) : List String :=
  columns.filter fun c => decide (c ∈ t.changes)

end ChildTag

end CourseBlueprint
