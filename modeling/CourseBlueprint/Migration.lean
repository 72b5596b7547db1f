import CourseBlueprint.Dict
import CourseBlueprint.Store.Records

/-!
# Migrations

A `Migration` is one import into a child course: the subscription it serves, the restrictions it
goes by, and the tags of the copies it could only partly write. A `Context` says what kind of save
is made: an import by some migration, an edit by a user, or one that is not tracked.
-/

namespace CourseBlueprint

/-- One import into a child course. -/
structure Migration where
  subscription : Subscription
  /-- The restrictions of each migration identifier. -/
  restrictions : Dict Restrictions
  /-- The tags of the copies that were only partly written, in order. -/
  skipped : List ChildTag

namespace Migration

/-- A migration that knows no restrictions. -/
def new (s : Subscription) : Migration := ⟨s, ∅, []⟩

/-- A migration that knows the restrictions of the subscription's template. -/
def load (s : Subscription) : Action Store Migration := do
  let tags ← Store.masterTagsOf s.templateId
  return ⟨s, .ofList (tags.map fun t => (t.migrationId, t.restrictions)), []⟩

/-- The migration with the restrictions of one more identifier. -/
def withRestrictions (m : Migration) (migrationId : String) (r : Restrictions) : Migration :=
  { m with restrictions := m.restrictions.put migrationId r }

/-- The restrictions that the migration knows of an identifier. -/
def find? (m : Migration) (migrationId : String) : Option Restrictions :=
  m.restrictions.get? migrationId

/-- The migration with more tags of copies that were only partly written. -/
def addSkipped (m : Migration) (tags : List ChildTag) : Migration :=
  { m with skipped := m.skipped ++ tags }

end Migration

/-- What kind of save is made. -/
structure Context where
  migration : Option Migration
  /-- Whether the save is neither checked nor tracked. -/
  untracked : Bool

namespace Context

/-- An edit by a user. -/
def user : Context := ⟨none, false⟩

/-- An edit that is neither checked nor tracked. -/
def system : Context := ⟨none, true⟩

/-- An import. -/
def importing (m : Migration) : Context := ⟨some m, false⟩

/-- Whether the save is an import. -/
def isImport (c : Context) : Bool := c.migration.isSome

end Context

end CourseBlueprint
