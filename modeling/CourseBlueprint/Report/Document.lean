import CourseBlueprint.Report
import CourseBlueprint.Tag.Rows

/-!
# Reports as documents

How reports and their parts are written as JSON. Parts that are empty or absent are left out; the
messages are always there.
-/

namespace CourseBlueprint

open Json (Document)

/-- A field with a value, or no field. -/
def optionalField {α : Type} (name : String) (write : α → Document) :
    Option α → List (String × Document)
  | none => []
  | some a => [(name, write a)]

/-- A field with a list, or no field if the list is empty. -/
def listField {α : Type} (name : String) (write : α → Document) :
    List α → List (String × Document)
  | [] => []
  | items => [(name, .array (items.map write))]

def Summary.toDocument (s : Summary) : Document :=
  .record (optionalField "is_master_course_child_content" .bool s.isChildContent ++
    optionalField "is_master_course_master_content" .bool s.isMasterContent ++
    optionalField "restricted_by_master_course" .bool s.restricted ++
    optionalField "master_course_restrictions" Restrictions.toDocument s.restrictions)

/-- The name of a check. -/
def Check.name : Check → String
  | unrestricted => "unrestricted"
  | accepted => "accepted"

def Reconciliation.toDocument : Reconciliation → Document
  | noOverlap => .record [("outcome", .text "no_overlap")]
  | partiallyOverwritten overwritten preserved =>
    .record [("outcome", .text "partially_overwritten"),
      ("columns", .record [("overwritten", overwritten.toDocument),
        ("preserved", preserved.toDocument)])]
  | fullyPreserved => .record [("outcome", .text "fully_preserved")]

def Merge.toDocument : Merge → Document
  | missing => .record [("result", .text "missing")]
  | unchanged => .record [("result", .text "unchanged")]
  | grew added => .record [("result", .text "grew"), ("columns", added.toDocument)]

def SaveReport.toDocument (s : SaveReport) : Document :=
  .record ([("restriction_check", .text s.check.name),
    ("reconciliation", s.reconciliation.toDocument)] ++
    optionalField "downstream" Merge.toDocument s.merge)

def Rejection.toDocument (r : Rejection) : Document := .record [("columns", .texts r.columns)]

def SchemaListing.toDocument (s : SchemaListing) : Document :=
  .record [("kind", .text s.kind.name),
    ("columns", .record (s.columns.map fun (category, columns) => (category.name, .texts columns)))]

def Config.toDocument (c : Config) : Document :=
  .record [("migration_id_prefix", .text c.marker),
    ("restriction_exempt_kinds", .option .texts c.exemptKinds),
    ("extra_columns", .option (fun kinds => .record (kinds.entries.map fun (kind, categories) =>
      (kind, .record (categories.entries.map fun (category, columns) =>
        (category, .texts columns))))) c.extraColumns)]

def Message.toDocument (m : Message) : Document :=
  .record [("level", .text m.level.name), ("content", .text m.content)]

def Report.toDocument (r : Report) : Document :=
  .record (listField "templates" Template.toDocument r.templates ++
    listField "subscriptions" Subscription.toDocument r.subscriptions ++
    listField "master_tags" MasterTag.toDocument r.masterTags ++
    listField "child_tags" ChildTag.toDocument r.childTags ++
    optionalField "blocked" (fun cs => .texts (cs.map Category.name)) r.kept ++
    optionalField "summary" Summary.toDocument r.summary ++
    optionalField "save" SaveReport.toDocument r.save ++
    optionalField "rejected" Rejection.toDocument r.rejected ++
    listField "schemas" SchemaListing.toDocument r.schemas ++
    optionalField "config" Config.toDocument r.config ++
    [("messages", .array (r.messages.map Message.toDocument))])

end CourseBlueprint
