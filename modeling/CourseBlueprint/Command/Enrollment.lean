import CourseBlueprint.Command.Lookup

/-!
# Making blueprints and following them

A course becomes a blueprint by a template and another course follows it by a subscription. Doing
either again finds what is there.
-/

namespace CourseBlueprint.Command

/-- Makes a course a blueprint. -/
def makeBlueprint (course : Uuid) : Action Store Report := do
  match ← Store.templateOf? course with
  | some t =>
    return Report.say { templates := [t] } .info
      ("Course " ++ course.hyphenated ++ " already has blueprint template " ++ t.id.hyphenated)
  | none =>
    let t ← Store.findOrCreateTemplate course
    return Report.say { templates := [t] } .success
      ("Course " ++ course.hyphenated ++ " is now a blueprint (template " ++ t.id.hyphenated ++ ")")

/-- Lets a course follow a blueprint course. -/
def subscribe (master child : Uuid) : Action Store Report := do
  if master = child then .fail .subscribedToItself
  let t ← templateOf master
  let s ← Store.findOrCreateSubscription t.id child
  return Report.say { subscriptions := [s] } .success
    ("Course " ++ child.hyphenated ++ " subscribed to blueprint " ++ master.hyphenated ++
      " (subscription " ++ s.id.hyphenated ++ ")")

end CourseBlueprint.Command
