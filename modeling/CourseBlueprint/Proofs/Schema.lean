import CourseBlueprint.Restrictions
import CourseBlueprint.Schema

/-!
# Columns of schemas

Which columns a category governs, and what it takes for a lock to be among restrictions.
-/

namespace CourseBlueprint

namespace Schema

theorem mem_entries {s : Schema} {g : Category} {columns : List String} :
    (g, columns) ∈ s.entries ↔ s.get g = some columns := by
  unfold entries
  constructor
  · intro h
    obtain ⟨g', -, hg'⟩ := List.mem_filterMap.1 h
    obtain ⟨columns', hget, heq⟩ := Option.map_eq_some_iff.1 hg'
    obtain ⟨rfl, rfl⟩ := Prod.mk.inj heq
    exact hget
  · intro h
    exact List.mem_filterMap.2 ⟨g, g.mem_all, by rw [h]; rfl⟩

/-- A category governs the columns of its entry. -/
theorem mem_columns {s : Schema} {g : Category} {column : String} :
    column ∈ s.columns g ↔ ∃ columns, (g, columns) ∈ s.entries ∧ column ∈ columns := by
  unfold columns
  cases hg : s.get g with
  | none =>
    constructor
    · intro h
      exact absurd h List.not_mem_nil
    · rintro ⟨columns, hmem, -⟩
      rw [mem_entries, hg] at hmem
      cases hmem
  | some columns =>
    constructor
    · intro h
      exact ⟨columns, mem_entries.2 hg, h⟩
    · rintro ⟨columns', hmem, h⟩
      rw [mem_entries, hg] at hmem
      rw [Option.some.inj hmem]
      exact h

theorem mem_categories {s : Schema} {g : Category} :
    g ∈ s.categories ↔ ∃ columns, s.get g = some columns := by
  unfold categories
  rw [List.mem_map]
  constructor
  · rintro ⟨⟨g', columns⟩, hmem, rfl⟩
    exact ⟨columns, mem_entries.1 hmem⟩
  · rintro ⟨columns, hget⟩
    exact ⟨(g, columns), mem_entries.2 hget, rfl⟩

theorem mem_allColumns {s : Schema} {column : String} :
    column ∈ s.allColumns ↔ ∃ g, column ∈ s.columns g := by
  unfold allColumns
  rw [NameSet.mem_ofList, List.mem_flatMap]
  constructor
  · rintro ⟨⟨g, columns⟩, hmem, h⟩
    exact ⟨g, mem_columns.2 ⟨columns, hmem, h⟩⟩
  · rintro ⟨g, h⟩
    obtain ⟨columns, hmem, h⟩ := mem_columns.1 h
    exact ⟨(g, columns), hmem, h⟩

theorem mem_addColumns {old new : List String} {column : String} :
    column ∈ addColumns old new ↔ column ∈ old ∨ column ∈ new := by
  unfold addColumns
  induction new generalizing old with
  | nil => simp
  | cons x new ih =>
    rw [List.foldl_cons, ih]
    by_cases hx : x ∈ old
    · rw [if_pos hx, List.mem_cons]
      constructor
      · rintro (h | h)
        · exact .inl h
        · exact .inr (.inr h)
      · rintro (h | rfl | h)
        · exact .inl h
        · exact .inl hx
        · exact .inr h
    · rw [if_neg hx, List.mem_append, List.mem_singleton, List.mem_cons, or_assoc]

/-- The new columns of a list are added behind the old ones, each where it comes first. -/
theorem addColumns_eq (old new : List String) :
    addColumns old new = old ++ (new.filter fun column => !decide (column ∈ old)).eraseDups := by
  induction new generalizing old with
  | nil => simp [addColumns]
  | cons x new ih =>
    have hstep : addColumns old (x :: new) = addColumns (if x ∈ old then old else old ++ [x]) new := rfl
    rw [hstep, ih]
    by_cases hold : x ∈ old
    · simp [hold]
    · have hrest : (new.filter fun column => !decide (column ∈ old ++ [x])) =
          (new.filter fun column => !decide (column ∈ old)).filter fun column => !column == x := by
        rw [List.filter_filter]
        refine List.filter_congr fun column _ => ?_
        by_cases hx : column = x
        · simp [hx]
        · simp [hx]
      rw [if_neg hold, hrest, List.filter_cons_of_pos (by simpa using hold), List.eraseDups_cons,
        List.append_assoc]
      rfl

theorem nodup_addColumns {old : List String} (h : old.Nodup) (new : List String) :
    (addColumns old new).Nodup := by
  unfold addColumns
  induction new generalizing old with
  | nil => exact h
  | cons x new ih =>
    rw [List.foldl_cons]
    refine ih ?_
    by_cases hx : x ∈ old
    · rwa [if_pos hx]
    · rw [if_neg hx]
      refine List.nodup_append.2 ⟨h, List.pairwise_singleton _ x, fun y hy z hz heq => ?_⟩
      rw [heq, List.mem_singleton.1 hz] at hy
      exact hx hy

end Schema

namespace Restrictions

/-- Restrictions in which a lock is on are not empty. -/
theorem isEmpty_of_isOn {r : Restrictions} {l : Lock} (h : r.isOn l = true) : r.isEmpty = false := by
  unfold isOn at h
  cases hget : r.get? l with
  | none => rw [hget] at h; cases h
  | some on =>
    have hmem : (l, on) ∈ r.entries :=
      List.mem_filterMap.2 ⟨l, l.mem_all, by rw [hget]; rfl⟩
    unfold isEmpty
    cases hentries : r.entries with
    | nil => rw [hentries] at hmem; exact absurd hmem List.not_mem_nil
    | cons e es => rfl

/-- Where no lock was ever set, none is on. -/
theorem isOn_of_isEmpty {r : Restrictions} (h : r.isEmpty = true) (l : Lock) : r.isOn l = false := by
  cases hon : r.isOn l with
  | false => rfl
  | true => rw [isEmpty_of_isOn hon] at h; cases h

end Restrictions

end CourseBlueprint
