import CourseBlueprint.Assignment
import CourseBlueprint.Command.Lookup

/-!
# Editing copies

An edit in a child course assigns columns of a copy, deletes it, or both. A system edit is neither
checked against the locks nor recorded.
-/

namespace CourseBlueprint.Command

/-- What an edit is to do. -/
structure Changes where
  assignments : List Assignment
  delete : Bool
  system : Bool

/-- The copy with the changes pending. -/
def editedItem (tag : ChildTag) (changes : Changes) : Item :=
  let i := (copyItem tag ∅).setAll changes.assignments
  if changes.delete then i.markDeleted else i

/-- How an edit that was saved is answered. -/
def editMessage (content : ContentKey) (system : Bool) : Option Merge → Message
  | some (.grew columns) =>
    ⟨.success, "Saved " ++ content.text ++ "; now tracking downstream changes to " ++
      Text.join columns.toList⟩
  | some .unchanged =>
    ⟨.success, "Saved " ++ content.text ++ "; downstream changes were already recorded"⟩
  | some .missing =>
    ⟨.warning, "Saved " ++ content.text ++
      ", but its child tag is gone; the change was not recorded"⟩
  | none =>
    if system then ⟨.success, "Saved " ++ content.text ++ " as a system edit"⟩
    else ⟨.success, "Saved " ++ content.text ++ "; no restricted columns changed"⟩

/-- Edits a copy. -/
def edit (b : Rulebook) (content : ContentKey) (changes : Changes) : Action Store Report := do
  let tag ← copyTag content
  let i := editedItem tag changes
  if i.pending.isEmpty then .fail .nothingToChange
  let context := if changes.system then Context.system else Context.user
  let (outcome, _) ← Work.on i (b.save context .noop)
  let report : Report := match outcome with
    | .rejected r => { rejected := some r }
    | .saved s => { save := some s, messages := [editMessage content changes.system s.merge] }
  return { report with childTags := (← Store.childTag? content).toList }

end CourseBlueprint.Command
