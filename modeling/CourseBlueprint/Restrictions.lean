import CourseBlueprint.Category

/-!
# Restrictions

The `Restrictions` of a piece of blueprint content say of each lock whether it is on, off or was
never set. A lock that was never set is not on, but it is not listed either.
-/

namespace CourseBlueprint

/-- Which locks were set, and how. -/
structure Restrictions where
  categories : PerCategory (Option Bool)
  everything : Option Bool
deriving DecidableEq

namespace Restrictions

/-- No lock was ever set. -/
def none : Restrictions := ⟨.const Option.none, Option.none⟩

instance : Inhabited Restrictions := ⟨none⟩

/-- How a lock was set. -/
def get? (r : Restrictions) : Lock → Option Bool
  | .only c => r.categories.get c
  | .everything => r.everything

/-- The restrictions with one lock set. -/
def set (r : Restrictions) (l : Lock) (on : Bool) : Restrictions :=
  match l with
  | .only c => { r with categories := r.categories.set c (some on) }
  | .everything => { r with everything := some on }

/-- The locks that were set, in their order. -/
def entries (r : Restrictions) : List (Lock × Bool) :=
  Lock.all.filterMap fun l => (r.get? l).map fun on => (l, on)

/-- Restrictions set from a list, of which the last entry of a lock counts. -/
def ofEntries (es : List (Lock × Bool)) : Restrictions :=
  es.foldl (fun r e => r.set e.1 e.2) none

/-- Whether a lock is on. -/
def isOn (r : Restrictions) (l : Lock) : Bool := (r.get? l).getD false

/-- Whether a category is locked by a lock of its own. -/
def isLocked (r : Restrictions) (c : Category) : Bool := r.isOn (.only c)

/-- Whether everything is locked at once. -/
def locksEverything (r : Restrictions) : Bool := r.isOn .everything

/-- The locks that are on, in their order. -/
def locked (r : Restrictions) : List Lock := Lock.all.filter r.isOn

/-- Whether any lock is on. -/
def anyLocked (r : Restrictions) : Bool := Lock.all.any r.isOn

/-- Whether no lock was ever set. -/
def isEmpty (r : Restrictions) : Bool := r.entries.isEmpty

/-! ## Lemmas -/

@[simp] theorem get?_none (l : Lock) : none.get? l = Option.none := by
  rcases l with c | _
  · exact PerCategory.get_const _ c
  · rfl

@[simp] theorem get?_set (r : Restrictions) (l m : Lock) (on : Bool) :
    (r.set l on).get? m = if m = l then some on else r.get? m := by
  rcases l with c | _ <;> rcases m with d | _ <;> simp [set, get?]

/-- Restrictions that answer alike are equal. -/
theorem eq_of_get?_eq {r s : Restrictions} (h : ∀ l, r.get? l = s.get? l) : r = s := by
  obtain ⟨c, e⟩ := r
  obtain ⟨c', e'⟩ := s
  have hc : c = c' := PerCategory.ext_get fun d => h (.only d)
  have he : e = e' := h .everything
  rw [hc, he]

end Restrictions

end CourseBlueprint
