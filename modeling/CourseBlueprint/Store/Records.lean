import CourseBlueprint.Store.Basic

/-!
# Looking up and recording

What the rules of saving and the commands ask of a store: templates by course, subscriptions by
pairing, restrictions by migration identifier, and the changes recorded on a copy's tag, which only
grow by `mergeChanges` and only shrink by `removeChanges`.
-/

namespace CourseBlueprint

/-- What recording changes on a tag did. -/
inductive Merge where
  /-- The content has no child tag. -/
  | missing
  /-- All were recorded before. -/
  | unchanged
  /-- These were not recorded before. -/
  | grew (added : NameSet)
deriving DecidableEq

namespace Store

/-! ## Templates and subscriptions -/

/-- The template of a course. -/
def templateOf? (course : Uuid) : Action Store (Option Template) := do
  return (← templates).find? fun t => t.courseId = course

/-- The template with an identifier. -/
def template? (id : Uuid) : Action Store (Option Template) := do
  return (← templates).find? fun t => t.id = id

/-- The template of a course, which is made a blueprint if it has none. -/
def findOrCreateTemplate (course : Uuid) : Action Store Template := do
  match ← templateOf? course with
  | some t => return t
  | none => insertTemplate ⟨← newId, course, ← now⟩

/-- The subscription with an identifier. -/
def subscription? (id : Uuid) : Action Store (Option Subscription) := do
  return (← subscriptions).find? fun s => s.id = id

/-- The subscription of a child course to a template, added if there is none. -/
def findOrCreateSubscription (template : Uuid) (childCourse : Uuid) :
    Action Store Subscription := do
  let candidate : Subscription := ⟨← newId, template, childCourse⟩
  match (← subscriptions).find? fun s => s.samePairing candidate with
  | some s => return s
  | none => insertSubscription candidate

/-! ## Master tags -/

/-- A new master tag without restrictions. -/
def newMasterTag (template : Template) (content : ContentKey) (migrationId : String) :
    Action Store MasterTag := do
  let id ← newId
  let time ← now
  return ⟨id, template.id, content, migrationId, Restrictions.none, time, time⟩

/-- The master tag with a migration identifier. -/
def masterTag? (migrationId : String) : Action Store (Option MasterTag) := do
  return (← masterTagsWith [migrationId]).head?

/-- The restrictions of several migration identifiers, of one template if one is given. -/
def restrictionsOf (ids : List String) (template? : Option Uuid) :
    Action Store (List (String × Restrictions)) := do
  if ids.isEmpty then return []
  let tags ← masterTagsWith ids
  let ours := tags.filter fun t => template?.all fun id => t.templateId = id
  return ours.map fun t => (t.migrationId, t.restrictions)

/-- The master tags of a template, in the order of their migration identifiers. -/
def masterTagsOf (template : Uuid) : Action Store (List MasterTag) := do
  let ours := (← masterTags).filter fun t => t.templateId = template
  return ours.mergeSort fun t u => t.migrationId ≤ u.migrationId

/-! ## Child tags -/

/-- The child tag of a piece of content, added without changes if there is none. -/
def findOrCreateChildTag (subscription : Uuid) (content : ContentKey)
    (migrationId : Option String) : Action Store ChildTag := do
  match ← childTag? content with
  | some t => return t
  | none =>
    let id ← newId
    let time ← now
    insertChildTag ⟨id, subscription, content, migrationId, ∅, time, time⟩

/-- Records columns as changed; the tag is written if any was not recorded before. -/
def mergeChanges (content : ContentKey) (columns : NameSet) : Action Store Merge := do
  let added? ← updateChildTag content fun t =>
    let added := columns \ t.changes
    (added, if added.isEmpty then none else some { t with changes := t.changes ∪ added })
  match added? with
  | none => return .missing
  | some added => return if added.isEmpty then .unchanged else .grew added

/-- Forgets that columns were changed, and answers whether any was recorded. -/
def removeChanges (content : ContentKey) (columns : NameSet) : Action Store Bool := do
  let removed? ← updateChildTag content fun t =>
    let left := t.changes \ columns
    if left = t.changes then (false, none) else (true, some { t with changes := left })
  return removed?.getD false

/-- The child tags of a subscription, in the order of their content. -/
def childTagsOf (subscription : Uuid) : Action Store (List ChildTag) := do
  let ours := (← childTags).filter fun t => t.subscriptionId = subscription
  return ours.mergeSort fun t u => t.content.le u.content

end Store

end CourseBlueprint
