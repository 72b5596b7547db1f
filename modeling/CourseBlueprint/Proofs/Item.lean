import CourseBlueprint.Item
import CourseBlueprint.Proofs.Json.Value

/-!
# Pending changes

An item still knows the value that each attribute had at its last save (`Item.original`). Giving
attributes values keeps it, as values are compared (`original_setAll`), and taking back changes
returns to it and leaves the other attributes alone (`value_restore`).
-/

namespace CourseBlueprint

namespace Item

/-- The value of an attribute at the last save. -/
def original (i : Item) (column : String) : Json :=
  match i.pending.get? column with
  | some change => change.old
  | none => i.value column

theorem original_of_not_pending {i : Item} {column : String} (h : i.pending.get? column = none) :
    i.original column = i.value column := by
  rw [original, h]

/-! ## Assigning -/

/-- A change is pending from the value at the last save, and not at all if it is that value. -/
theorem set_eq (i : Item) (column : String) (v : Json) :
    i.set column v =
      if (i.value column).same v then i
      else { i with
        pending := if (i.original column).same v then i.pending.erase column
          else i.pending.put column ⟨i.original column, v⟩
        attributes := i.attributes.put column v } := rfl

theorem attributes_set (i : Item) (column : String) (v : Json) (k : String) :
    (i.set column v).attributes.get? k =
      if k = column ∧ (i.value column).same v = false then some v else i.attributes.get? k := by
  rw [set_eq]
  cases hsame : (i.value column).same v with
  | true => simp
  | false =>
    show Dict.get? (i.attributes.put column v) k = _
    rw [Dict.get?_put]
    simp

theorem value_set (i : Item) (column : String) (v : Json) (k : String) :
    (i.set column v).value k =
      if k = column ∧ (i.value column).same v = false then v else i.value k := by
  rw [value, attributes_set]
  split
  · rfl
  · rfl

/-- An attribute has the value that it is given, as values are compared. -/
theorem value_set_self (i : Item) (column : String) (v : Json) :
    ((i.set column v).value column).same v = true := by
  rw [value_set]
  cases hsame : (i.value column).same v with
  | true => simpa using hsame
  | false => simp [Json.same_refl]

theorem pending_set (i : Item) (column : String) (v : Json) (k : String) :
    (i.set column v).pending.get? k =
      if k = column ∧ (i.value column).same v = false then
        if (i.original column).same v then none else some ⟨i.original column, v⟩
      else i.pending.get? k := by
  rw [set_eq]
  cases hsame : (i.value column).same v with
  | true => simp
  | false =>
    show Dict.get? (if (i.original column).same v then _ else _) k = _
    by_cases hk : k = column
    · subst hk
      split
      · simp [Dict.get?_erase]
      · simp
    · split
      · simp [hk, Dict.get?_erase]
      · simp [hk, Dict.get?_put_of_ne hk]

/-- Giving an attribute a value keeps the values at the last save. -/
theorem original_set (i : Item) (column : String) (v : Json) (k : String) :
    ((i.set column v).original k).same (i.original k) = true := by
  have hpending := pending_set i column v k
  have hvalue := value_set i column v k
  by_cases hk : k = column ∧ (i.value column).same v = false
  · rw [if_pos hk] at hpending hvalue
    obtain ⟨rfl, -⟩ := hk
    by_cases hback : (i.original k).same v = true
    · -- the change is taken back: the value itself is the one at the last save
      rw [if_pos hback] at hpending
      rw [original_of_not_pending hpending, hvalue]
      exact Json.same_symm hback
    · rw [if_neg hback] at hpending
      rw [original, hpending]
      exact Json.same_refl _
  · rw [if_neg hk] at hpending hvalue
    rw [original, hpending, hvalue]
    exact Json.same_refl _

theorem original_setAll (assignments : List (String × Json)) (i : Item) (k : String) :
    ((i.setAll assignments).original k).same (i.original k) = true := by
  unfold setAll
  induction assignments generalizing i with
  | nil => exact Json.same_refl _
  | cons a assignments ih => exact Json.same_trans (ih _) (original_set i a.1 a.2 k)

/-- Nothing but attributes and pending changes is touched by giving an attribute a value. -/
theorem set_frame (i : Item) (column : String) (v : Json) :
    ∃ attributes pending,
      i.set column v = { i with attributes := attributes, pending := pending } := by
  rw [set_eq]
  split
  · exact ⟨_, _, rfl⟩
  · exact ⟨_, _, rfl⟩

theorem setAll_frame (assignments : List (String × Json)) (i : Item) :
    ∃ attributes pending,
      i.setAll assignments = { i with attributes := attributes, pending := pending } := by
  unfold setAll
  induction assignments generalizing i with
  | nil => exact ⟨_, _, rfl⟩
  | cons a assignments ih =>
    obtain ⟨attributes, pending, hrest⟩ := ih (i.set a.1 a.2)
    obtain ⟨attributes', pending', hset⟩ := i.set_frame a.1 a.2
    rw [List.foldl_cons, hrest, hset]
    exact ⟨_, _, rfl⟩

/-- What has nothing to do with attributes and pending changes may be changed before or after an attribute
is given a value. -/
theorem set_comm {f : Item → Item} (hf : ∀ (i : Item) as ps,
      f { i with attributes := as, pending := ps } = { f i with attributes := as, pending := ps })
    (i : Item) (column : String) (v : Json) : (f i).set column v = f (i.set column v) := by
  have hself := hf i i.attributes i.pending
  have hattributes := congrArg Item.attributes hself
  have hpending := congrArg Item.pending hself
  change (f i).attributes = i.attributes at hattributes
  change (f i).pending = i.pending at hpending
  have hvalue : (f i).value column = i.value column := by rw [value, hattributes, value]
  have horiginal : (f i).original column = i.original column := by
    rw [original, hpending, hvalue, original]
  rw [set_eq, set_eq, hvalue, horiginal, hattributes, hpending]
  split
  · rfl
  · exact (hf i _ _).symm

theorem setAll_comm {f : Item → Item} (hf : ∀ (i : Item) as ps,
      f { i with attributes := as, pending := ps } = { f i with attributes := as, pending := ps })
    (assignments : List (String × Json)) (i : Item) :
    (f i).setAll assignments = f (i.setAll assignments) := by
  unfold setAll
  induction assignments generalizing i with
  | nil => rfl
  | cons a assignments ih => rw [List.foldl_cons, List.foldl_cons, set_comm hf, ih]

/-- An attribute that is given no value keeps its own, and its pending change. -/
theorem setAll_of_not_assigned {assignments : List (String × Json)} {column : String} (i : Item)
    (h : column ∉ assignments.map Prod.fst) :
    (i.setAll assignments).pending.get? column = i.pending.get? column ∧
      (i.setAll assignments).value column = i.value column := by
  unfold setAll
  induction assignments generalizing i with
  | nil => exact ⟨rfl, rfl⟩
  | cons a assignments ih =>
    rw [List.map_cons, List.mem_cons, not_or] at h
    obtain ⟨hpending, hvalue⟩ := ih (i.set a.1 a.2) h.2
    rw [List.foldl_cons, hpending, hvalue, pending_set, value_set]
    simp [h.1]

/-- An attribute is pending exactly if its value is another than at the last save, and the pending
change leads to its value. -/
structure Coherent (i : Item) : Prop where
  pending_iff : ∀ k, (i.pending.get? k).isSome = true ↔ (i.original k).same (i.value k) = false
  new_eq : ∀ k change, i.pending.get? k = some change → change.new = i.value k

theorem coherent_of_clean {i : Item} (h : i.pending = ∅) : i.Coherent where
  pending_iff := by
    intro k
    rw [original, h]
    show (none : Option Change).isSome = true ↔ (i.value k).same (i.value k) = false
    simp [Json.same_refl]
  new_eq := by
    intro k change hchange
    rw [h] at hchange
    cases hchange

theorem Coherent.set {i : Item} (h : i.Coherent) (column : String) (v : Json) :
    (i.set column v).Coherent := by
  have hset := pending_set i column v
  refine ⟨fun k => ?_, fun k change hchange => ?_⟩
  · by_cases hk : k = column ∧ (i.value column).same v = false
    · obtain ⟨rfl, hnew⟩ := hk
      rw [original, hset, value_set, if_pos ⟨rfl, hnew⟩]
      cases hback : (i.original k).same v with
      | true => simp [Json.same_refl, hnew]
      | false => simp [hback, hnew]
    · rw [original, hset, value_set, if_neg hk, if_neg hk]
      exact h.pending_iff k
  · rw [hset] at hchange
    rw [value_set]
    split at hchange
    · next hk =>
      rw [if_pos hk]
      split at hchange
      · cases hchange
      · rw [← Option.some.inj hchange]
    · next hk =>
      rw [if_neg hk]
      exact h.new_eq k change hchange

theorem Coherent.setAll {i : Item} (h : i.Coherent) (assignments : List (String × Json)) :
    (i.setAll assignments).Coherent := by
  unfold Item.setAll
  induction assignments generalizing i with
  | nil => exact h
  | cons a assignments ih => exact ih (h.set a.1 a.2)

/-! ## Last values -/

/-- The value that is assigned to an attribute last, if any is. -/
def lastAssigned (column : String) : List (String × Json) → Option Json
  | [] => none
  | (k, v) :: rest => (lastAssigned column rest).or (if k = column then some v else none)

theorem isSome_lastAssigned {column : String} {assignments : List (String × Json)} :
    (lastAssigned column assignments).isSome = true ↔ column ∈ assignments.map Prod.fst := by
  induction assignments with
  | nil => simp [lastAssigned]
  | cons a assignments ih =>
    obtain ⟨k, v⟩ := a
    rw [lastAssigned, Option.isSome_or, Bool.or_eq_true, ih, List.map_cons, List.mem_cons, or_comm]
    refine or_congr_left ?_
    by_cases hk : k = column
    · simp [hk]
    · simp [hk, Ne.symm hk]

/-- An attribute has the value that it was given last, as values are compared. -/
theorem value_setAll (assignments : List (String × Json)) (i : Item) (column : String) :
    ((i.setAll assignments).value column).same
      ((lastAssigned column assignments).getD (i.value column)) = true := by
  unfold setAll
  induction assignments generalizing i with
  | nil => exact Json.same_refl _
  | cons a assignments ih =>
    obtain ⟨k, v⟩ := a
    have hrest := ih (i.set k v)
    rw [List.foldl_cons, lastAssigned]
    cases hlast : lastAssigned column assignments with
    | some w =>
      rw [hlast] at hrest
      exact hrest
    | none =>
      rw [hlast] at hrest
      refine Json.same_trans hrest ?_
      rw [Option.getD_none, Option.none_or]
      by_cases hk : k = column
      · rw [hk, if_pos rfl]
        exact value_set_self i column v
      · rw [value_set, if_neg fun h => hk h.1.symm, if_neg hk]
        exact Json.same_refl _

/-- Of an item without pending changes, an attribute is pending exactly if the value that it was given
last is another than its own. -/
theorem isSome_pending_setAll {i : Item} (hclean : i.pending = ∅) (assignments : List (String × Json))
    (column : String) : ((i.setAll assignments).pending.get? column).isSome = true ↔
      (i.value column).same ((lastAssigned column assignments).getD (i.value column)) = false := by
  have hpending : i.pending.get? column = none := by
    rw [hclean]
    rfl
  have horiginal := original_setAll assignments i column
  rw [original_of_not_pending hpending] at horiginal
  have hvalue := value_setAll assignments i column
  rw [((coherent_of_clean hclean).setAll assignments).pending_iff, ← Bool.not_eq_true,
    ← Bool.not_eq_true]
  refine not_congr ⟨fun hsame => ?_, fun hsame => ?_⟩
  · exact Json.same_trans (Json.same_symm horiginal) (Json.same_trans hsame hvalue)
  · exact Json.same_trans horiginal (Json.same_trans hsame (Json.same_symm hvalue))

/-! ## Taking back -/

theorem pending_restoreOne (i : Item) (column k : String) :
    (i.restoreOne column).pending.get? k = if k = column then none else i.pending.get? k := by
  unfold restoreOne
  split
  · next hnone =>
    by_cases hk : k = column
    · rw [if_pos hk, hk, hnone]
    · rw [if_neg hk]
  · exact Dict.get?_erase

/-- A pending change that is taken back leaves the value before it. -/
theorem value_restoreOne (i : Item) (column k : String) :
    (i.restoreOne column).value k = if k = column then i.original k else i.value k := by
  unfold restoreOne
  split
  · next hnone =>
    by_cases hk : k = column
    · rw [if_pos hk, hk, original_of_not_pending hnone]
    · rw [if_neg hk]
  · next change hsome =>
    by_cases hk : k = column
    · rw [if_pos hk, hk, original, hsome]
      show (Dict.get? (if change.old.isNull then _ else _) column).getD Json.null = change.old
      split
      · next hnull =>
        rw [Dict.get?_erase, if_pos rfl]
        cases hold : change.old with
        | null => rfl
        | _ => rw [hold] at hnull; cases hnull
      · rw [Dict.get?_put_self]
        rfl
    · rw [if_neg hk]
      show (Dict.get? (if change.old.isNull then _ else _) k).getD Json.null = _
      split
      · rw [Dict.get?_erase, if_neg hk]
        rfl
      · rw [Dict.get?_put_of_ne hk]
        rfl

theorem original_restoreOne (i : Item) (column k : String) :
    (i.restoreOne column).original k = i.original k := by
  by_cases hk : k = column
  · rw [original_of_not_pending (by rw [pending_restoreOne, if_pos hk]), value_restoreOne,
      if_pos hk]
  · rw [original, pending_restoreOne, if_neg hk, value_restoreOne, if_neg hk]
    rfl

theorem pending_restore (columns : List String) (i : Item) (k : String) :
    (i.restore columns).pending.get? k = if k ∈ columns then none else i.pending.get? k := by
  unfold restore
  induction columns generalizing i with
  | nil => rfl
  | cons column columns ih =>
    rw [List.foldl_cons, ih, pending_restoreOne]
    by_cases hk : k = column
    · simp [hk]
    · simp [hk]

/-- Changes that are taken back leave the values before them, and other attributes as they are. -/
theorem value_restore (columns : List String) (i : Item) (k : String) :
    (i.restore columns).value k = if k ∈ columns then i.original k else i.value k := by
  unfold restore
  induction columns generalizing i with
  | nil => rfl
  | cons column columns ih =>
    rw [List.foldl_cons, ih, original_restoreOne, value_restoreOne]
    by_cases hk : k = column
    · simp [hk]
    · simp [hk]

/-- Nothing but attributes and pending changes is touched. -/
theorem restore_frame (columns : List String) (i : Item) :
    ∃ attributes pending,
      i.restore columns = { i with attributes := attributes, pending := pending } := by
  unfold restore
  induction columns generalizing i with
  | nil => exact ⟨_, _, rfl⟩
  | cons column columns ih =>
    obtain ⟨attributes, pending, h⟩ := ih (i.restoreOne column)
    rw [List.foldl_cons, h]
    unfold restoreOne
    split
    · exact ⟨_, _, rfl⟩
    · exact ⟨_, _, rfl⟩

end Item

end CourseBlueprint
