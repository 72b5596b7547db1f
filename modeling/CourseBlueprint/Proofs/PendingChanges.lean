import Mathlib.Data.List.DropRight
import CourseBlueprint.Proofs.Save.ReconciliationEffect

/-!
# The life of an item

After an item was made, attributes of it are given values, its deletion is marked, changes are taken
back and applied, in any order and any number of times. Whatever was done, the pending changes are
exactly those since the changes were applied last (`Item.tracks_changes`): they name the attributes that
have another value now, with the value then and the value now. Giving an attribute a value makes it the
value now and leaves the other attributes alone (`Item.Gives`).

What carries this is that an item never forgets the values it had then (`Item.Follows`).
-/

namespace CourseBlueprint

namespace Item

/-! ## Histories -/

/-- What is done to an item after it was made. -/
inductive Edit where
  | set (column : String) (value : Json)
  | markDeleted
  | restore (columns : List String)
  | changesApplied
  /-- The item learns where it came from, who owns its tag or which locks apply to it. -/
  | describe (migrationId : Option String) (owner : Option ContentKey)
      (childRestrictions masterRestrictions : Option Restrictions)

/-- Whether the pending changes are applied. -/
def Edit.applies : Edit → Bool
  | changesApplied => true
  | _ => false

/-- The item after something is done to it. -/
def edit (i : Item) : Edit → Item
  | .set column value => i.set column value
  | .markDeleted => i.markDeleted
  | .restore columns => i.restore columns
  | .changesApplied => i.changesApplied
  | .describe migrationId owner childRestrictions masterRestrictions =>
    { i with migrationId, owner, childRestrictions, masterRestrictions }

/-- The item after a history. -/
def edits (i : Item) (history : List Edit) : Item := history.foldl edit i

/-- The item as it was when its changes were applied last, or as it was made if they never were. -/
def lastApplied (i : Item) (history : List Edit) : Item :=
  i.edits (history.rdropWhile fun e => !e.applies)

theorem edits_concat (i : Item) (history : List Edit) (e : Edit) :
    i.edits (history ++ [e]) = (i.edits history).edit e := by
  unfold edits
  rw [List.foldl_append]
  rfl

theorem lastApplied_concat (i : Item) (history : List Edit) (e : Edit) :
    i.lastApplied (history ++ [e]) =
      if e.applies then (i.edits history).edit e else i.lastApplied history := by
  unfold lastApplied
  rw [List.rdropWhile_concat]
  cases e.applies with
  | true => exact edits_concat i history e
  | false => rfl

/-! ## Giving values -/

/-- Giving a column a value. The column has it then, and nothing else changes; if the column has it
before, as values are compared, nothing changes at all. -/
structure Gives (now : Item) (column : String) (v : Json) (after : Item) : Prop where
  value_same : (after.value column).same v = true
  unchanged : (now.value column).same v = true → after = now
  attribute_eq : (now.value column).same v = false → after.attributes.get? column = some v
  attributes_eq : ∀ k ≠ column, after.attributes.get? k = now.attributes.get? k
  pending_eq : ∀ k ≠ column, after.pending.get? k = now.pending.get? k
  frame : ∃ attributes pending, after = { now with attributes := attributes, pending := pending }

theorem gives_set (i : Item) (column : String) (v : Json) : Gives i column v (i.set column v) where
  value_same := value_set_self i column v
  unchanged := by
    intro hsame
    rw [set_eq, if_pos hsame]
  attribute_eq hsame := by rw [attributes_set, if_pos ⟨rfl, hsame⟩]
  attributes_eq k hk := by rw [attributes_set, if_neg fun h => hk h.1]
  pending_eq k hk := by rw [pending_set, if_neg fun h => hk h.1]
  frame := i.set_frame column v

/-! ## What an item remembers -/

theorem original_restore (columns : List String) (i : Item) (k : String) :
    (i.restore columns).original k = i.original k := by
  unfold restore
  induction columns generalizing i with
  | nil => rfl
  | cons column columns ih => rw [List.foldl_cons, ih, original_restoreOne]

theorem Coherent.restore {i : Item} (h : i.Coherent) (columns : List String) :
    (i.restore columns).Coherent := by
  constructor
  · intro k
    rw [original_restore, pending_restore, value_restore]
    by_cases hk : k ∈ columns
    · simp [hk, Json.same_refl]
    · rw [if_neg hk, if_neg hk]
      exact h.pending_iff k
  · intro k change hchange
    rw [pending_restore] at hchange
    rw [value_restore]
    by_cases hk : k ∈ columns
    · rw [if_pos hk] at hchange
      cases hchange
    · rw [if_neg hk] at hchange ⊢
      exact h.new_eq k change hchange

/-- An item whose pending changes lead from the values of another one, its earlier state. -/
structure Follows (base now : Item) : Prop where
  coherent : now.Coherent
  original_same : ∀ k, (now.original k).same (base.value k) = true

theorem follows_of_clean {i : Item} (h : i.pending = ∅) : Follows i i where
  coherent := coherent_of_clean h
  original_same := by
    intro k
    have hpending : i.pending.get? k = none := by
      rw [h]
      rfl
    rw [original_of_not_pending hpending]
    exact Json.same_refl _

theorem Follows.set {base now : Item} (h : Follows base now) (column : String) (v : Json) :
    Follows base (now.set column v) where
  coherent := h.coherent.set column v
  original_same k := Json.same_trans (original_set now column v k) (h.original_same k)

/-- Until its changes are applied, whatever is done to an item leaves it with the same earlier state. -/
theorem Follows.edit {base now : Item} (h : Follows base now) {e : Edit} (he : e.applies = false) :
    Follows base (now.edit e) := by
  cases e with
  | set column v => exact h.set column v
  | markDeleted => exact h.set now.stateColumn (.string deletedState)
  | restore columns =>
    refine ⟨h.coherent.restore columns, fun k => ?_⟩
    show ((now.restore columns).original k).same (base.value k) = true
    rw [original_restore]
    exact h.original_same k
  | changesApplied => cases he
  | describe _ _ _ _ => exact ⟨⟨h.coherent.pending_iff, h.coherent.new_eq⟩, h.original_same⟩

/-- After any history the earlier state is that of the last time that changes were applied. -/
theorem follows_lastApplied {i : Item} (hclean : i.pending = ∅) (history : List Edit) :
    Follows (i.lastApplied history) (i.edits history) := by
  induction history using List.reverseRecOn with
  | nil => exact follows_of_clean hclean
  | append_singleton history e ih =>
    rw [lastApplied_concat, edits_concat]
    cases he : e.applies with
    | false => exact ih.edit he
    | true =>
      cases e with
      | changesApplied => exact follows_of_clean rfl
      | _ => cases he

/-! ## What the pending changes tell -/

/-- The pending changes of an item are exactly its differences from an earlier state. -/
structure TellsChanges (base now : Item) : Prop where
  pending_iff : ∀ k, (now.pending.get? k).isSome = true ↔
    (now.value k).same (base.value k) = false
  old_same : ∀ k change, now.pending.get? k = some change → change.old.same (base.value k) = true
  new_eq : ∀ k change, now.pending.get? k = some change → change.new = now.value k

theorem Follows.tellsChanges {base now : Item} (h : Follows base now) : TellsChanges base now where
  pending_iff := by
    intro k
    have hsame := h.original_same k
    rw [h.coherent.pending_iff, ← Bool.not_eq_true, ← Bool.not_eq_true]
    refine not_congr ⟨fun hold => ?_, fun hbase => ?_⟩
    · exact Json.same_trans (Json.same_symm hold) hsame
    · exact Json.same_trans hsame (Json.same_symm hbase)
  old_same := by
    intro k change hchange
    have hsame := h.original_same k
    rw [original, hchange] at hsame
    exact hsame
  new_eq := h.coherent.new_eq

/-- Taking back some columns gives them their values in an earlier state, and nothing else changes. -/
structure GivesBack (base now : Item) (columns : List String) : Prop where
  value_same : ∀ k ∈ columns, ((now.restore columns).value k).same (base.value k) = true
  not_pending : ∀ k ∈ columns, (now.restore columns).pending.get? k = none
  attributes_eq : ∀ k ∉ columns, (now.restore columns).attributes.get? k = now.attributes.get? k
  pending_eq : ∀ k ∉ columns, (now.restore columns).pending.get? k = now.pending.get? k
  frame : ∃ attributes pending,
    now.restore columns = { now with attributes := attributes, pending := pending }

theorem Follows.givesBack {base now : Item} (h : Follows base now) (columns : List String) :
    GivesBack base now columns where
  value_same := by
    intro k hk
    rw [value_restore, if_pos hk]
    exact h.original_same k
  not_pending k hk := by rw [pending_restore, if_pos hk]
  attributes_eq k hk := by rw [attributes_restore, if_neg hk]
  pending_eq k hk := by rw [pending_restore, if_neg hk]
  frame := restore_frame columns now

/-- Applying changes saves exactly the pending ones and leaves none. -/
structure AppliesPending (now : Item) : Prop where
  saved_eq : now.changesApplied.saved = now.pending
  pending_eq : now.changesApplied.pending = ∅
  attributes_eq : now.changesApplied.attributes = now.attributes

/-- Whatever is done to an item that starts without pending changes, they are exactly its differences
from what it was when changes were applied last. Giving a column a value makes it the value now, and the
mark of a deletion is such a value; taking back columns gives them their values then, and applying the
changes saves these and leaves none. -/
theorem tracks_changes {i : Item} (hclean : i.pending = ∅) (history : List Edit) :
    TellsChanges (i.lastApplied history) (i.edits history) ∧
      (∀ column v, Gives (i.edits history) column v (i.edits (history ++ [.set column v]))) ∧
      Gives (i.edits history) (i.edits history).stateColumn (.string deletedState)
        (i.edits (history ++ [.markDeleted])) ∧
      (∀ columns, GivesBack (i.lastApplied history) (i.edits history) columns) ∧
      AppliesPending (i.edits history) := by
  have hfollows := follows_lastApplied hclean history
  refine ⟨hfollows.tellsChanges, fun column v => ?_, ?_, hfollows.givesBack, ⟨rfl, rfl, rfl⟩⟩
  · rw [edits_concat]
    exact gives_set (i.edits history) column v
  · rw [edits_concat]
    exact gives_set (i.edits history) _ _

end Item

namespace Sample

/-- A page gets another title, which is applied. Then a body is tried out, and the page is deleted. -/
def pageHistory : List Item.Edit :=
  [.set "title" (.string "Week 2"), .changesApplied, .set "body" (.string "new"), .set "body" .null,
    .markDeleted]

/-- The pending changes of the page are those since its title was applied, and it can be given a body
again. -/
theorem tracks_changes_page :
    (Item.persisted page ∅).pending = ∅ ∧
      Item.TellsChanges ((Item.persisted page ∅).edits (pageHistory.take 2))
        ((Item.persisted page ∅).edits pageHistory) ∧
      ((Item.persisted page ∅).edits (pageHistory ++ [.set "body" (.string "new")])).attributes.get?
        "body" = some (.string "new") := by
  obtain ⟨htells, hgives, -⟩ := Item.tracks_changes (i := Item.persisted page ∅) rfl pageHistory
  exact ⟨rfl, htells, (hgives "body" (.string "new")).attribute_eq rfl⟩

end Sample

end CourseBlueprint
