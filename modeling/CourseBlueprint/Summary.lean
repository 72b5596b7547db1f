import CourseBlueprint.Failure
import CourseBlueprint.Restrictions

/-!
# Summaries

What is told about the locks of an item, depending on whether it is looked at in the blueprint
course or in a child course.
-/

namespace CourseBlueprint

/-- The two sides of a subscription. -/
inductive CourseRole where
  | master
  | child
deriving DecidableEq, Repr

namespace CourseRole

/-- The name of a role. -/
def name : CourseRole → String
  | master => "master"
  | child => "child"

/-- The role of a name. -/
def ofName (text : String) : Result CourseRole :=
  .ofOption (.unknownRole text) ([master, child].find? fun r => r.name = text)

end CourseRole

/-- What is told about the locks of an item; what does not apply is left out. -/
structure Summary where
  isChildContent : Option Bool
  isMasterContent : Option Bool
  restricted : Option Bool
  restrictions : Option Restrictions
deriving DecidableEq

namespace Summary

/-- Nothing is told. -/
def none : Summary := ⟨.none, .none, .none, .none⟩

/-- Of a copy: its locks are told if it is restricted. -/
def child (restricted : Bool) (r : Restrictions) : Summary :=
  ⟨some true, .none, some restricted, if restricted then some r else .none⟩

/-- Of blueprint content: its locks are told if any is on. -/
def master (r : Restrictions) : Summary :=
  ⟨.none, some true, some r.anyLocked, if r.anyLocked then some r else .none⟩

/-- Whether nothing is told. -/
def isEmpty (s : Summary) : Bool := decide (s = none)

end Summary

/-- The lock of a name. -/
def Lock.ofName (text : String) : Result Lock := .ofOption (.unknownLock text) (Lock.ofName? text)

/-- The scope of a name. -/
def Scope.ofName (text : String) : Result Scope :=
  .ofOption (.unknownScope text) (Scope.ofName? text)

end CourseBlueprint
