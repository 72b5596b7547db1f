import CourseBlueprint.Command.Lookup
import CourseBlueprint.Preload
import CourseBlueprint.Save.Reconciliation

/-!
# Looking without changing

The locks of blueprint content and of copies, the copies that were changed in a child course, what
the next sync would do to a copy, the columns of the kinds, and the configuration.
-/

namespace CourseBlueprint.Command

/-- Works on an item of which only the result is wanted. -/
def examine {α : Type} (i : Item) (x : Work α) : Action Store α := do
  return (← Work.on i x).1

/-- The item after a look-up of many, of which it is the only one. -/
def only (i : Item) (items : List Item) : Item := items.headD i

/-- The locks of blueprint content, as the blueprint course sees them. -/
def showContent (b : Rulebook) (course : Uuid) (content : ContentKey) : Action Store Report := do
  let t ← templateOf course
  let i := Item.persisted content ∅
  let (_, items) ← Preload.masters course b.settings.marker [i]
  let summary ← examine (only i items) (b.summary .user .master)
  match ← Store.masterTag? (t.migrationId b.settings.marker content) with
  | some tag => return { masterTags := [tag], summary := some summary }
  | none =>
    return Report.say { summary := some summary } .info
      (content.text ++ " has not been synced or locked yet")

/-- The locks of a copy, as the child course sees them. -/
def inspect (b : Rulebook) (content : ContentKey) : Action Store Report := do
  let tag ← copyTag content
  let i := copyItem tag ∅
  let (_, items) ← Preload.copies b.settings.marker [i]
  let summary ← examine (only i items) (b.summary .user .child)
  let report : Report := { summary := some summary, childTags := [tag] }
  return if summary.isEmpty then report.say .info (content.text ++ " is not blueprint content")
    else report

/-- The copies of a subscription that were changed since the last sync. -/
def status (subscriptionId : Uuid) : Action Store Report := do
  let s ← subscription subscriptionId
  let changed := (← Store.childTagsOf s.id).filter fun t => !t.changes.isEmpty
  let report : Report := { subscriptions := [s], childTags := changed }
  return if changed.isEmpty then
      report.say .info ("No downstream changes in course " ++ s.childCourseId.hyphenated)
    else report

/-- What the next sync would do to a deletion in the child course. -/
def deletionMessage (content : ContentKey) (restricted : Bool) : Message :=
  if restricted then
    ⟨.info, "The next sync will restore " ++ content.text ++ ", which the child deleted"⟩
  else
    ⟨.warning, "The next sync will keep " ++ content.text ++ " deleted, as the child left it"⟩

/-- What the next sync would do to the columns of a copy. -/
def keptMessages (content : ContentKey) (kept : List Category) (deleted : Bool) : List Message :=
  if !kept.isEmpty then
    [⟨.warning, "The next sync will keep the child's " ++ Text.join (kept.map Category.name) ++
      " on " ++ content.text⟩]
  else if deleted then []
  else [⟨.info, "The next sync will overwrite " ++ content.text ++ " completely"⟩]

/-- What the next sync would leave alone on a copy. -/
def preview (b : Rulebook) (content : ContentKey) : Action Store Report := do
  let tag ← copyTag content
  let s ← subscription tag.subscriptionId
  let c := Context.importing (← Migration.load s)
  let (kept, restricted) ← examine (copyItem tag ∅) do
    let kept ← b.keptCategories c
    let restricted ← if tag.isManuallyDeleted then b.isRestricted c .any else pure false
    return (kept, restricted)
  let first := if tag.isManuallyDeleted then [deletionMessage content restricted] else []
  return { kept := some kept, childTags := [tag],
           messages := first ++ keptMessages content kept tag.isManuallyDeleted }

/-- The columns of one kind, or of all kinds that have any. -/
def listSchemas (b : Rulebook) (kind? : Option Kind) : Report :=
  let kinds := match kind? with
    | some k => [k]
    | none => Kind.all
  let listed := kinds.filterMap fun k =>
    if (b.registry k).isEmpty then none else some ⟨k, (b.registry k).entries⟩
  let report : Report := { schemas := listed }
  match kind?, listed with
  | some k, [] => report.say .info (k.name ++ " has no restricted columns")
  | _, _ => report

end CourseBlueprint.Command
