/-!
# Sets of names

A `NameSet` is a finite set of texts, kept in increasing order with each text once, so that two
sets with the same members are equal (`NameSet.ext`) and listing a set is listing it in order.
-/

namespace CourseBlueprint

/-- A finite set of names, listed in increasing order. -/
@[ext] structure NameSet where
  toList : List String
  sorted : toList.Pairwise (· < ·)
deriving DecidableEq

namespace NameSet

/-! ## Algorithm -/

/-- Puts a name at its place in an increasing list that may already hold it. -/
def insertSorted (name : String) : List String → List String
  | [] => [name]
  | y :: ys =>
    if name < y then name :: y :: ys
    else if name = y then y :: ys
    else y :: insertSorted name ys

theorem mem_insertSorted {x name : String} {ys : List String} :
    x ∈ insertSorted name ys ↔ x = name ∨ x ∈ ys := by
  induction ys with
  | nil => simp [insertSorted]
  | cons y ys ih =>
    unfold insertSorted
    split
    · simp
    · split
      · next h => subst h; simp
      · simp only [List.mem_cons, ih]
        constructor
        · rintro (h | h | h) <;> simp [h]
        · rintro (h | h | h) <;> simp [h]

theorem sorted_insertSorted {name : String} {ys : List String} (h : ys.Pairwise (· < ·)) :
    (insertSorted name ys).Pairwise (· < ·) := by
  induction ys with
  | nil => simp [insertSorted]
  | cons y ys ih =>
    obtain ⟨hy, hys⟩ := List.pairwise_cons.1 h
    unfold insertSorted
    split
    · next hlt =>
      refine List.pairwise_cons.2 ⟨fun z hz => ?_, h⟩
      rcases List.mem_cons.1 hz with rfl | hz
      · exact hlt
      · exact String.lt_trans hlt (hy z hz)
    · split
      · exact h
      · next hlt hne =>
        refine List.pairwise_cons.2 ⟨fun z hz => ?_, ih hys⟩
        rcases mem_insertSorted.1 hz with rfl | hz
        · by_cases hyz : y < z
          · exact hyz
          · exact absurd (String.le_antisymm (String.not_lt.1 hyz) (String.not_lt.1 hlt)) hne
        · exact hy z hz

instance : Membership String NameSet where
  mem s name := name ∈ s.toList

instance (name : String) (s : NameSet) : Decidable (name ∈ s) :=
  inferInstanceAs (Decidable (name ∈ s.toList))

/-- The set without members. -/
def empty : NameSet := ⟨[], .nil⟩

instance : EmptyCollection NameSet := ⟨empty⟩
instance : Inhabited NameSet := ⟨empty⟩

/-- The set with one more member. -/
def insert (s : NameSet) (name : String) : NameSet :=
  ⟨insertSorted name s.toList, sorted_insertSorted s.sorted⟩

/-- The members of a list. -/
def ofList (names : List String) : NameSet :=
  names.foldl insert ∅

/-- The members that pass a test. -/
def filter (s : NameSet) (keep : String → Bool) : NameSet :=
  ⟨s.toList.filter keep, s.sorted.filter keep⟩

/-- The members of either set. -/
def union (s t : NameSet) : NameSet :=
  t.toList.foldl insert s

/-- The members of the first set that the second lacks. -/
def diff (s t : NameSet) : NameSet :=
  s.filter fun name => !decide (name ∈ t)

instance : Union NameSet := ⟨union⟩
instance : SDiff NameSet := ⟨diff⟩

/-- Whether the set has no member. -/
def isEmpty (s : NameSet) : Bool := s.toList.isEmpty

/-! ## Lemmas -/

theorem mem_def {s : NameSet} {x : String} : x ∈ s ↔ x ∈ s.toList := Iff.rfl

@[simp] theorem not_mem_empty (x : String) : ¬ x ∈ (∅ : NameSet) := List.not_mem_nil

@[simp] theorem mem_insert {s : NameSet} {x name : String} :
    x ∈ s.insert name ↔ x = name ∨ x ∈ s :=
  mem_insertSorted

@[simp] theorem mem_filter {s : NameSet} {keep : String → Bool} {x : String} :
    x ∈ s.filter keep ↔ x ∈ s ∧ keep x = true :=
  List.mem_filter

theorem mem_foldl_insert {names : List String} {s : NameSet} {x : String} :
    x ∈ names.foldl insert s ↔ x ∈ s ∨ x ∈ names := by
  induction names generalizing s with
  | nil => simp
  | cons y ys ih =>
    simp only [List.foldl_cons, ih, mem_insert, List.mem_cons]
    constructor
    · rintro ((h | h) | h) <;> simp [h]
    · rintro (h | h | h) <;> simp [h]

@[simp] theorem mem_ofList {names : List String} {x : String} : x ∈ ofList names ↔ x ∈ names := by
  simp [ofList, mem_foldl_insert]

@[simp] theorem mem_union {s t : NameSet} {x : String} : x ∈ s ∪ t ↔ x ∈ s ∨ x ∈ t :=
  mem_foldl_insert

@[simp] theorem mem_diff {s t : NameSet} {x : String} : x ∈ s \ t ↔ x ∈ s ∧ ¬ x ∈ t := by
  show x ∈ s.filter _ ↔ _
  simp

@[simp] theorem isEmpty_iff {s : NameSet} : s.isEmpty = true ↔ ∀ x, ¬ x ∈ s := by
  simp [isEmpty, mem_def, List.eq_nil_iff_forall_not_mem]

/-- Two increasing lists with the same members are the same list. -/
theorem eq_of_sorted_of_mem_iff {xs ys : List String} (hx : xs.Pairwise (· < ·))
    (hy : ys.Pairwise (· < ·)) (h : ∀ z, z ∈ xs ↔ z ∈ ys) : xs = ys := by
  induction xs generalizing ys with
  | nil =>
    cases ys with
    | nil => rfl
    | cons y ys => exact absurd ((h y).2 List.mem_cons_self) List.not_mem_nil
  | cons x xs ih =>
    cases ys with
    | nil => exact absurd ((h x).1 List.mem_cons_self) List.not_mem_nil
    | cons y ys =>
      obtain ⟨hxs, hx'⟩ := List.pairwise_cons.1 hx
      obtain ⟨hys, hy'⟩ := List.pairwise_cons.1 hy
      have hxy : x = y := by
        rcases List.mem_cons.1 ((h x).1 List.mem_cons_self) with hx1 | hx1
        · exact hx1
        · rcases List.mem_cons.1 ((h y).2 List.mem_cons_self) with hy1 | hy1
          · exact hy1.symm
          · exact absurd (hxs y hy1) (String.lt_asymm (hys x hx1))
      subst hxy
      refine congrArg (x :: ·) (ih hx' hy' fun z => ?_)
      constructor
      · intro hz
        rcases List.mem_cons.1 ((h z).1 (List.mem_cons_of_mem _ hz)) with rfl | hz'
        · exact absurd (hxs z hz) (String.lt_irrefl z)
        · exact hz'
      · intro hz
        rcases List.mem_cons.1 ((h z).2 (List.mem_cons_of_mem _ hz)) with rfl | hz'
        · exact absurd (hys z hz) (String.lt_irrefl z)
        · exact hz'

/-- Sets with the same members are equal. -/
theorem eq_of_mem_iff {s t : NameSet} (h : ∀ x, x ∈ s ↔ x ∈ t) : s = t :=
  NameSet.ext (eq_of_sorted_of_mem_iff s.sorted t.sorted h)

end NameSet

end CourseBlueprint
