import CourseBlueprint.Json.Record
import CourseBlueprint.Tag

/-!
# Rows of tables

How templates, subscriptions and tags are written as JSON records, and read again. What is written
reads back as the same row; reading also takes rows without restrictions or changes as those without
any.
-/

namespace CourseBlueprint

open Json (Document Record)

/-! ## Parts of rows -/

namespace Uuid

def toDocument (u : Uuid) : Document := .text u.hyphenated

def ofDocument? (d : Document) : Option Uuid := d.text?.bind ofText?

end Uuid

namespace Timestamp

def toDocument (t : Timestamp) : Document := .text t.text

def ofDocument? (d : Document) : Option Timestamp := d.text?.bind ofText?

end Timestamp

namespace ContentKey

def toDocument (k : ContentKey) : Document :=
  .record [("kind", .text k.kind.name), ("id", k.id.toDocument)]

def ofDocument? (d : Document) : Option ContentKey := do
  let r ← Record.ofDocument? ["kind", "id"] d
  let kind ← r.required "kind" fun d => d.name?.bind Kind.ofName?
  let id ← r.required "id" Uuid.ofDocument?
  return ⟨kind, id⟩

end ContentKey

namespace Restrictions

def toDocument (r : Restrictions) : Document :=
  .record (r.entries.map fun (l, on) => (l.name, .bool on))

def ofDocument? (d : Document) : Option Restrictions :=
  (d.entries? Lock.ofName? Document.bool?).map ofEntries

end Restrictions

namespace NameSet

def toDocument (s : NameSet) : Document := .texts s.toList

def ofDocument? (d : Document) : Option NameSet := (d.list? Document.text?).map ofList

end NameSet

/-! ## Rows -/

namespace Template

def toDocument (t : Template) : Document :=
  .record [("id", t.id.toDocument), ("course_id", t.courseId.toDocument),
    ("created_at", t.createdAt.toDocument)]

def ofDocument? (d : Document) : Option Template := do
  let r ← Record.ofDocument? ["id", "course_id", "created_at"] d
  let id ← r.required "id" Uuid.ofDocument?
  let courseId ← r.required "course_id" Uuid.ofDocument?
  let createdAt ← r.required "created_at" Timestamp.ofDocument?
  return ⟨id, courseId, createdAt⟩

end Template

namespace Subscription

def toDocument (s : Subscription) : Document :=
  .record [("id", s.id.toDocument), ("master_template_id", s.templateId.toDocument),
    ("child_course_id", s.childCourseId.toDocument)]

def ofDocument? (d : Document) : Option Subscription := do
  let r ← Record.ofDocument? ["id", "master_template_id", "child_course_id"] d
  let id ← r.required "id" Uuid.ofDocument?
  let templateId ← r.required "master_template_id" Uuid.ofDocument?
  let childCourseId ← r.required "child_course_id" Uuid.ofDocument?
  return ⟨id, templateId, childCourseId⟩

end Subscription

namespace MasterTag

def toDocument (t : MasterTag) : Document :=
  .record [("id", t.id.toDocument), ("master_template_id", t.templateId.toDocument),
    ("content", t.content.toDocument), ("migration_id", .text t.migrationId),
    ("restrictions", t.restrictions.toDocument), ("created_at", t.createdAt.toDocument),
    ("updated_at", t.updatedAt.toDocument)]

def ofDocument? (d : Document) : Option MasterTag := do
  let r ← Record.ofDocument? ["id", "master_template_id", "content", "migration_id",
    "restrictions", "created_at", "updated_at"] d
  let id ← r.required "id" Uuid.ofDocument?
  let templateId ← r.required "master_template_id" Uuid.ofDocument?
  let content ← r.required "content" ContentKey.ofDocument?
  let migrationId ← r.required "migration_id" Document.text?
  let restrictions ← r.withDefault "restrictions" Restrictions.none Restrictions.ofDocument?
  let createdAt ← r.required "created_at" Timestamp.ofDocument?
  let updatedAt ← r.required "updated_at" Timestamp.ofDocument?
  return ⟨id, templateId, content, migrationId, restrictions, createdAt, updatedAt⟩

end MasterTag

namespace ChildTag

def toDocument (t : ChildTag) : Document :=
  .record [("id", t.id.toDocument), ("subscription_id", t.subscriptionId.toDocument),
    ("content", t.content.toDocument), ("migration_id", .option .text t.migrationId),
    ("downstream_changes", t.changes.toDocument), ("created_at", t.createdAt.toDocument),
    ("updated_at", t.updatedAt.toDocument)]

def ofDocument? (d : Document) : Option ChildTag := do
  let r ← Record.ofDocument? ["id", "subscription_id", "content", "migration_id",
    "downstream_changes", "created_at", "updated_at"] d
  let id ← r.required "id" Uuid.ofDocument?
  let subscriptionId ← r.required "subscription_id" Uuid.ofDocument?
  let content ← r.required "content" ContentKey.ofDocument?
  let migrationId ← r.nullable "migration_id" Document.text?
  let changes ← r.withDefault "downstream_changes" ∅ NameSet.ofDocument?
  let createdAt ← r.required "created_at" Timestamp.ofDocument?
  let updatedAt ← r.required "updated_at" Timestamp.ofDocument?
  return ⟨id, subscriptionId, content, migrationId, changes, createdAt, updatedAt⟩

end ChildTag

/-! ## Tables -/

/-- How the rows of a table are written and read. -/
structure RowFormat (α : Type) where
  write : α → Document
  read? : Document → Option α

/-- The text of a table: its rows in an array, one field on a line. -/
def RowFormat.encode {α : Type} (f : RowFormat α) (rows : List α) : String :=
  String.ofList (Document.array (rows.map f.write)).pretty

/-- The rows of a table's text. -/
def RowFormat.decode? {α : Type} (f : RowFormat α) (text : String) : Option (List α) :=
  (Document.ofText? text).bind (Document.list? f.read?)

def Template.format : RowFormat Template := ⟨Template.toDocument, Template.ofDocument?⟩
def Subscription.format : RowFormat Subscription :=
  ⟨Subscription.toDocument, Subscription.ofDocument?⟩
def MasterTag.format : RowFormat MasterTag := ⟨MasterTag.toDocument, MasterTag.ofDocument?⟩
def ChildTag.format : RowFormat ChildTag := ⟨ChildTag.toDocument, ChildTag.ofDocument?⟩

end CourseBlueprint
