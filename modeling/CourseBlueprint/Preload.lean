import CourseBlueprint.Item
import CourseBlueprint.Settings
import CourseBlueprint.Store.Records

/-!
# Preloading

The restrictions of many items are looked up at once, for copies by the migration identifier they
carry and for blueprint content by the one its copies would carry. Items without a master tag get
empty restrictions. If nothing qualifies, the store is not asked.
-/

namespace CourseBlueprint.Preload

/-- The migration identifiers under which items are looked up, each once. -/
def distinct (ids : List String) : List String :=
  ids.foldl (fun acc id => if id ∈ acc then acc else acc ++ [id]) []

/-- What was found under a migration identifier, of which the last find counts. -/
def restrictionsIn (found : List (String × Restrictions)) (id : String) : Restrictions :=
  ((Dict.ofList found).get? id).getD Restrictions.none

/-- The identifier under which a copy is looked up; none if it does not qualify. -/
def copyId? (marker : String) (i : Item) : Option String :=
  if i.key.kind.skipsPreload || i.childRestrictions.isSome then none
  else i.migrationId.filter fun id => marker.toList.isPrefixOf id.toList

/-- The identifier under which blueprint content is looked up; none if it does not qualify. -/
def masterId? (template : Template) (marker : String) (i : Item) : Option String :=
  if i.key.kind.allowedInBlueprint then some (template.migrationId marker i.key) else none

/-- Looks up the items that qualify, and gives each what was found. -/
def fill (idOf : Item → Option String) (template? : Option Uuid)
    (give : Restrictions → Item → Item) (items : List Item) : Action Store (Nat × List Item) := do
  let ids := items.filterMap idOf
  if ids.isEmpty then return (0, items)
  let found ← Store.restrictionsOf (distinct ids) template?
  return (ids.length, items.map fun i =>
    match idOf i with
    | none => i
    | some id => give (restrictionsIn found id) i)

/-- Gives copies the restrictions of the content they were made from, and answers how many copies
got some. -/
def copies (marker : String) (items : List Item) : Action Store (Nat × List Item) :=
  fill (copyId? marker) none (fun r i => { i with childRestrictions := some r }) items

/-- Gives blueprint content of a course its restrictions, and answers how many got some. -/
def masters (course : Uuid) (marker : String) (items : List Item) :
    Action Store (Nat × List Item) := do
  match ← Store.templateOf? course with
  | none => return (0, items)
  | some t =>
    fill (masterId? t marker) (some t.id) (fun r i => { i with masterRestrictions := some r }) items

end CourseBlueprint.Preload
