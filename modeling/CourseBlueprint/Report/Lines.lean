import CourseBlueprint.Report
import CourseBlueprint.Text.Quoted
import CourseBlueprint.Text.Style

/-!
# Reports as lines of text

How a report is shown to a reader: first the rows and what was found out, one line each, and the
messages last, as the outcome of the command.
-/

namespace CourseBlueprint

open Text (Palette Style)

/-- What is on, or a dash. -/
def Restrictions.lockedText (r : Restrictions) : String :=
  Text.joinOrDash (r.locked.map Lock.name)

def Template.line (p : Palette) (t : Template) : String :=
  "template " ++ t.id.hyphenated ++ " " ++ Style.dim.apply p ("course " ++ t.courseId.hyphenated)

def Subscription.line (p : Palette) (s : Subscription) : String :=
  "subscription " ++ s.id.hyphenated ++ " " ++
    Style.dim.apply p ("child course " ++ s.childCourseId.hyphenated)

def MasterTag.line (p : Palette) (t : MasterTag) : String :=
  t.content.text ++ " " ++ Style.dim.apply p t.migrationId ++ " locked: " ++
    t.restrictions.lockedText

def ChildTag.line (p : Palette) (t : ChildTag) : String :=
  t.content.text ++ " " ++ Style.dim.apply p (t.migrationId.getD "-") ++ " changed: " ++
    Text.joinOrDash t.changes.toList

/-- The kind, and the columns of each category below it. -/
def SchemaListing.lines (p : Palette) (s : SchemaListing) : List String :=
  Style.bold.apply p s.kind.name :: s.columns.map fun (category, columns) =>
    "  " ++ Text.padTo 20 category.name ++ " " ++ Text.join columns

def Summary.lines (s : Summary) : List String :=
  (if s.isMasterContent = some true then ["blueprint content"] else []) ++
    (if s.isChildContent = some true then ["blueprint copy"] else []) ++
    match s.restricted, s.restrictions with
    | some true, some r => ["locked: " ++ r.lockedText]
    | some false, _ => ["locked: -"]
    | _, _ => []

/-- Each choice as an assignment. -/
def Config.lines (c : Config) : List String :=
  ("migration_id_prefix = " ++ Text.quoted c.marker) ::
    ((c.exemptKinds.map fun kinds =>
        "restriction_exempt_kinds = " ++ Text.quotedList kinds).toList ++
      (c.extraColumns.getD ∅).entries.flatMap fun (kind, categories) =>
        categories.entries.map fun (category, columns) =>
          "extra_columns." ++ kind ++ "." ++ category ++ " = " ++ Text.quotedList columns)

/-- The style of a level. -/
def Level.style : Level → Style
  | info => .dim
  | success => .green
  | warning => .yellow
  | error => .red

def Message.line (p : Palette) (m : Message) : String := m.level.style.apply p m.content

def Rejection.line (p : Palette) (r : Rejection) : String :=
  Style.red.apply p "rejected:" ++ " " ++ Text.join r.columns

/-- The lines of a report. -/
def Report.lines (p : Palette) (r : Report) : List String :=
  r.templates.map (Template.line p) ++
    r.subscriptions.map (Subscription.line p) ++
    r.masterTags.map (MasterTag.line p) ++
    r.childTags.map (ChildTag.line p) ++
    r.schemas.flatMap (SchemaListing.lines p) ++
    (r.summary.map Summary.lines).getD [] ++
    (r.kept.map fun cs => "kept on sync: " ++ Text.joinOrDash (cs.map Category.name)).toList ++
    (r.config.map Config.lines).getD [] ++
    (r.rejected.map (Rejection.line p)).toList ++
    r.messages.map (Message.line p)

end CourseBlueprint
