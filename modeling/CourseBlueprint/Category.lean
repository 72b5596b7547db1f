/-!
# Categories and locks

The columns of content fall into five categories. A `Lock` names one category, or everything at
once; a `Scope` is what one can ask about a copy: whether all of its categories are locked, any of
them, or a lock of one's choice is on.
-/

namespace CourseBlueprint

/-- The categories of columns, in their order. -/
inductive Category where
  | content
  | settings
  | dueDates
  | availabilityDates
  | points
deriving DecidableEq, Repr, Inhabited

namespace Category

/-- All categories, in their order. -/
def all : List Category := [content, settings, dueDates, availabilityDates, points]

/-- The name of a category. -/
def name : Category → String
  | content => "content"
  | settings => "settings"
  | dueDates => "due_dates"
  | availabilityDates => "availability_dates"
  | points => "points"

instance : ToString Category := ⟨name⟩

/-- The category of a name. -/
def ofName? (text : String) : Option Category := all.find? fun c => c.name = text

theorem mem_all (c : Category) : c ∈ all := by cases c <;> decide

theorem ofName?_name (c : Category) : ofName? c.name = some c := by cases c <;> decide

theorem name_inj {c d : Category} (h : c.name = d.name) : c = d :=
  Option.some.inj ((h ▸ c.ofName?_name : ofName? d.name = some c).symm.trans d.ofName?_name)

end Category

/-- What can be locked: one category, or everything. -/
inductive Lock where
  | only (c : Category)
  | everything
deriving DecidableEq, Repr, Inhabited

namespace Lock

/-- All locks, the categories first. -/
def all : List Lock := Category.all.map only ++ [everything]

/-- The name of a lock. -/
def name : Lock → String
  | only c => c.name
  | everything => "all"

instance : ToString Lock := ⟨name⟩

/-- The lock of a name. -/
def ofName? (text : String) : Option Lock := all.find? fun l => l.name = text

theorem mem_all (l : Lock) : l ∈ all := by
  cases l with
  | only c => cases c <;> decide
  | everything => decide

theorem ofName?_name (l : Lock) : ofName? l.name = some l := by
  cases l with
  | only c => cases c <;> decide
  | everything => decide

theorem ofName?_eq_some {text : String} {l : Lock} : ofName? text = some l ↔ l.name = text := by
  constructor
  · intro h
    simpa using List.find?_some h
  · intro h
    rw [← h]
    exact l.ofName?_name

end Lock

/-- A question about the locks of a copy. -/
inductive Scope where
  | all
  | any
  | only (l : Lock)
deriving DecidableEq, Repr

namespace Scope

/-- The scope that is meant when none is named. -/
def usual : Scope := all

/-- The scope of a name. The lock of everything cannot be named: its name asks about all. -/
def ofName? (text : String) : Option Scope :=
  if text = "all" then some all
  else if text = "any" then some any
  else (Category.ofName? text).map fun c => only (.only c)

end Scope

/-- One value for each category. -/
structure PerCategory (α : Type) where
  content : α
  settings : α
  dueDates : α
  availabilityDates : α
  points : α
deriving DecidableEq, Inhabited

namespace PerCategory

variable {α : Type}

/-- The same value for all. -/
def const (a : α) : PerCategory α := ⟨a, a, a, a, a⟩

/-- The value of a category. -/
def get (p : PerCategory α) : Category → α
  | .content => p.content
  | .settings => p.settings
  | .dueDates => p.dueDates
  | .availabilityDates => p.availabilityDates
  | .points => p.points

/-- The values with that of one category replaced. -/
def set (p : PerCategory α) (c : Category) (a : α) : PerCategory α :=
  match c with
  | .content => { p with content := a }
  | .settings => { p with settings := a }
  | .dueDates => { p with dueDates := a }
  | .availabilityDates => { p with availabilityDates := a }
  | .points => { p with points := a }

@[simp] theorem get_const (a : α) (c : Category) : (const a).get c = a := by cases c <;> rfl

@[simp] theorem get_set (p : PerCategory α) (c d : Category) (a : α) :
    (p.set c a).get d = if d = c then a else p.get d := by
  cases c <;> cases d <;> rfl

theorem ext_get {p q : PerCategory α} (h : ∀ c, p.get c = q.get c) : p = q := by
  obtain ⟨_, _, _, _, _⟩ := p
  obtain ⟨_, _, _, _, _⟩ := q
  simpa [get] using ⟨h .content, h .settings, h .dueDates, h .availabilityDates, h .points⟩

end PerCategory

end CourseBlueprint
