import Mathlib.Data.List.Nodup
import CourseBlueprint.Proofs.Save.Reconciliation

/-!
# The rows after an import

The import of an item works on one row: it settles the changes of the first tag of the item's content
(`Rulebook.settleOne`), or adds a tag without changes. What it does to the changes depends on the item
and these changes only, so that items with different keys settle the rows in any order
(`settle_perm`), and the rows that two orders leave are the same but for identifiers and times
(`Imported.sameRows`).
-/

namespace CourseBlueprint

namespace ChildTag

/-- A tag without the time of its last change. -/
def undated (t : ChildTag) : ChildTag := { t with updatedAt := .epoch }

/-- A tag without what it was given when it was added: its identifier and its times. -/
def unstamped (t : ChildTag) : ChildTag := { t with id := ⟨0⟩, createdAt := .epoch, updatedAt := .epoch }

theorem unstamped_undated (t : ChildTag) : t.undated.unstamped = t.unstamped := rfl

end ChildTag

namespace Tables

variable {α β : Type} {test test' : α → Bool} {f g : α → α} {rows : List α}

/-- Works on the first row that passes a test, if any. -/
def updateFirst (test : α → Bool) (f : α → α) : List α → List α
  | [] => []
  | r :: rest => if test r then f r :: rest else r :: updateFirst test f rest

/-- Work on rows of which none passes the test leaves them. -/
theorem updateFirst_of_none (h : rows.find? test = none) : updateFirst test f rows = rows := by
  induction rows with
  | nil => rfl
  | cons r rows ih =>
    cases hr : test r with
    | true =>
      rw [List.find?_cons_of_pos hr] at h
      cases h
    | false =>
      rw [List.find?_cons_of_neg (by simp [hr])] at h
      rw [updateFirst, if_neg (by simp [hr]), ih h]

theorem updateFirst_append_of_not {row : α} (h : test row = false) :
    updateFirst test f (rows ++ [row]) = updateFirst test f rows ++ [row] := by
  induction rows with
  | nil => simp [updateFirst, h]
  | cons r rows ih =>
    simp only [List.cons_append, updateFirst]
    split
    · rfl
    · rw [ih, List.cons_append]

/-- Work on a row that has nothing to do leaves the rows. -/
theorem updateFirst_of_fixed {row : α} (hfind : rows.find? test = some row) (hfixed : f row = row) :
    updateFirst test f rows = rows := by
  induction rows with
  | nil => rfl
  | cons r rows ih =>
    rw [updateFirst]
    cases hr : test r with
    | true =>
      rw [List.find?_cons_of_pos hr] at hfind
      obtain rfl := Option.some.inj hfind
      rw [if_pos rfl, hfixed]
    | false =>
      rw [List.find?_cons_of_neg (by simp [hr])] at hfind
      rw [if_neg Bool.false_ne_true, ih hfind]

/-- What the work leaves of every row is left of all rows. -/
theorem map_updateFirst {h : α → β} (hf : ∀ a, h (f a) = h a) :
    (updateFirst test f rows).map h = rows.map h := by
  induction rows with
  | nil => rfl
  | cons r rows ih =>
    rw [updateFirst]
    split
    · rw [List.map_cons, List.map_cons, hf]
    · rw [List.map_cons, List.map_cons, ih]

/-- Work on different rows is done in any order. -/
theorem updateFirst_comm (happart : ∀ a, test a = true → test' a = false)
    (hf : ∀ a, test' (f a) = test' a) (hg : ∀ a, test (g a) = test a) :
    updateFirst test f (updateFirst test' g rows) = updateFirst test' g (updateFirst test f rows) := by
  induction rows with
  | nil => rfl
  | cons r rows ih =>
    cases hr : test r with
    | true => simp [updateFirst, hr, hf, happart r hr]
    | false =>
      cases hr' : test' r with
      | true => simp [updateFirst, hr, hr', hg]
      | false => simp [updateFirst, hr, hr', ih]

/-- Replacing the first row that passes a test is work on it. -/
theorem map_replaceFirst_eq_updateFirst {h : α → α} {row found : α}
    (htest : ∀ a, test (h a) = test a) (hfind : rows.find? test = some found)
    (hrow : h row = f (h found)) :
    (replaceFirst test row rows).map h = updateFirst test f (rows.map h) := by
  induction rows with
  | nil => rfl
  | cons r rows ih =>
    rw [replaceFirst, List.map_cons, updateFirst, htest]
    cases hr : test r with
    | true =>
      rw [List.find?_cons_of_pos hr] at hfind
      obtain rfl := Option.some.inj hfind
      rw [if_pos rfl, if_pos rfl, List.map_cons, hrow]
    | false =>
      rw [List.find?_cons_of_neg (by simp [hr])] at hfind
      rw [if_neg Bool.false_ne_true, if_neg Bool.false_ne_true, List.map_cons, ih hfind]

/-- Whether two ways to go on from the same rows come to the same but for what is new. The rows there
were are kept in their order, and differ in the times of their last change at most; the rows added to
them are the same, in any order, but for identifiers and times. -/
def SameRows (rows rows₁ rows₂ : List ChildTag) : Prop :=
  ∃ kept₁ added₁ kept₂ added₂, rows₁ = kept₁ ++ added₁ ∧ rows₂ = kept₂ ++ added₂ ∧
    kept₁.map ChildTag.id = rows.map ChildTag.id ∧
    kept₁.map ChildTag.undated = kept₂.map ChildTag.undated ∧
    (added₁.map ChildTag.unstamped).Perm (added₂.map ChildTag.unstamped)

end Tables

/-- The tag that an import adds for an item, without what is new about it. -/
def Migration.blankTag (m : Migration) (i : Item) : ChildTag :=
  ⟨⟨0⟩, m.subscription.id, i.key, i.migrationId, ∅, .epoch, .epoch⟩

namespace Rulebook

open Reconciliation (Plan)

variable {b : Rulebook} {m : Migration} {i : Item} {items items' : List Item} {tag : ChildTag}
  {rows rows₁ rows' : List ChildTag}

/-! ## One item -/

/-- The plan that the import of an item carries out on its tag. A new item and a tag without changes
ask for nothing. -/
def importPlan (b : Rulebook) (m : Migration) (i : Item) (tag : ChildTag) : Plan :=
  if i.isNew || tag.changes.isEmpty then .empty else b.planIn m tag i

/-- What the import of an item leaves of its tag. -/
def settleTag (b : Rulebook) (m : Migration) (i : Item) (tag : ChildTag) : ChildTag :=
  { tag with changes := tag.changes \ (b.importPlan m i tag).forget }

/-- What the import of an item leaves of the rows there are. -/
def settleOne (b : Rulebook) (m : Migration) (rows : List ChildTag) (i : Item) : List ChildTag :=
  if b.isCopy i then Tables.updateFirst (fun t => t.content = i.key) (b.settleTag m i) rows else rows

theorem undated_settleTag (b : Rulebook) (m : Migration) (i : Item) (tag : ChildTag) :
    (b.settleTag m i tag).undated = b.settleTag m i tag.undated := rfl

/-- Items with different keys settle the rows in any order. -/
theorem settleOne_comm {j : Item} (hne : i.key ≠ j.key) (rows : List ChildTag) :
    b.settleOne m (b.settleOne m rows i) j = b.settleOne m (b.settleOne m rows j) i := by
  unfold settleOne
  cases b.isCopy i with
  | false => rfl
  | true =>
    cases b.isCopy j with
    | false => rfl
    | true =>
      simp only [if_true]
      apply Tables.updateFirst_comm
      · intro t ht
        rw [of_decide_eq_true ht]
        exact decide_eq_false hne.symm
      · exact fun _ => rfl
      · exact fun _ => rfl

/-- An item without a tag settles nothing. -/
theorem settleOne_of_none (h : Tables.childTagIn rows i.key = none) : b.settleOne m rows i = rows := by
  unfold settleOne
  split
  · exact Tables.updateFirst_of_none h
  · rfl

theorem settleOne_append_of_ne (hne : tag.content ≠ i.key) :
    b.settleOne m (rows ++ [tag]) i = b.settleOne m rows i ++ [tag] := by
  unfold settleOne
  split
  · exact Tables.updateFirst_append_of_not (decide_eq_false hne)
  · rfl

theorem map_id_settleOne (rows : List ChildTag) (i : Item) :
    (b.settleOne m rows i).map ChildTag.id = rows.map ChildTag.id := by
  unfold settleOne
  split
  · exact Tables.map_updateFirst fun _ => rfl
  · rfl

theorem childTagIn_undated (rows : List ChildTag) (content : ContentKey) :
    Tables.childTagIn (rows.map ChildTag.undated) content =
      (Tables.childTagIn rows content).map ChildTag.undated := List.find?_map

/-- An item that is no copy, or whose tag has nothing to settle, settles nothing. -/
theorem settleOne_of_fixed
    (h : b.isCopy i = true → ∃ tag, Tables.childTagIn rows i.key = some tag ∧
      b.settleTag m i tag = tag) : b.settleOne m rows i = rows := by
  unfold settleOne
  split
  · next hcopy =>
    obtain ⟨tag, htag, hfixed⟩ := h hcopy
    exact Tables.updateFirst_of_fixed htag hfixed
  · rfl

/-- Setting the changes of a tag to what the import of its item leaves of them settles the rows. -/
theorem undated_replaceFirst (hcopy : b.isCopy i = true)
    (htag : Tables.childTagIn rows i.key = some tag) (time : Timestamp) :
    (Tables.replaceFirst (fun t => t.content = i.key)
      (tag.withChanges (tag.changes \ (b.importPlan m i tag).forget) time) rows).map
      ChildTag.undated = b.settleOne m (rows.map ChildTag.undated) i := by
  rw [settleOne, if_pos hcopy]
  exact Tables.map_replaceFirst_eq_updateFirst (fun _ => rfl) htag rfl

/-! ## Items in turn -/

/-- What the import of items, in turn, leaves of the rows there are. -/
def settle (b : Rulebook) (m : Migration) (items : List Item) (rows : List ChildTag) :
    List ChildTag := items.foldl (b.settleOne m) rows

/-- Whether an item is a copy without a tag. -/
def lacksTag (b : Rulebook) (rows : List ChildTag) (i : Item) : Bool :=
  b.isCopy i && (Tables.childTagIn rows i.key).isNone

theorem settle_append_of_not_mem (h : tag.content ∉ items.map Item.key) :
    b.settle m items (rows ++ [tag]) = b.settle m items rows ++ [tag] := by
  induction items generalizing rows with
  | nil => rfl
  | cons i items ih =>
    rw [List.map_cons, List.mem_cons, not_or] at h
    rw [settle, List.foldl_cons, settleOne_append_of_ne h.1]
    exact ih h.2

theorem map_id_settle (items : List Item) (rows : List ChildTag) :
    (b.settle m items rows).map ChildTag.id = rows.map ChildTag.id := by
  induction items generalizing rows with
  | nil => rfl
  | cons i items ih => exact (ih _).trans (map_id_settleOne rows i)

/-- Items with distinct keys settle the rows in any order. -/
theorem settle_perm (hperm : items.Perm items') (hkeys : (items.map Item.key).Nodup)
    (rows : List ChildTag) : b.settle m items rows = b.settle m items' rows := by
  refine hperm.foldl_eq' (fun i hi j hj rows => ?_) rows
  by_cases heq : i = j
  · rw [heq]
  · exact settleOne_comm (fun hkey => heq (List.inj_on_of_nodup_map hkeys hi hj hkey)) rows

/-- How rows are after items were imported, in turn: those there were are settled, and for the copies
that had no tag there are new ones behind them. -/
def Imported (b : Rulebook) (m : Migration) (items : List Item) (rows rows' : List ChildTag) : Prop :=
  ∃ kept added, rows' = kept ++ added ∧
    kept.map ChildTag.undated = b.settle m items (rows.map ChildTag.undated) ∧
    added.map ChildTag.unstamped = (items.filter (b.lacksTag rows)).map m.blankTag

/-- What the import of one item leaves of the rows: they are settled, or there is a tag more. The tags
of other contents are found as before. -/
structure ImportedOne (b : Rulebook) (m : Migration) (i : Item) (rows rows' : List ChildTag) :
    Prop where
  ends : (b.lacksTag rows i = false ∧
      rows'.map ChildTag.undated = b.settleOne m (rows.map ChildTag.undated) i) ∨
    b.lacksTag rows i = true ∧ ∃ tag, rows' = rows ++ [tag] ∧ tag.unstamped = m.blankTag i
  others : ∀ content, content ≠ i.key →
    Tables.childTagIn rows' content = Tables.childTagIn rows content

theorem Imported.nil (b : Rulebook) (m : Migration) (rows : List ChildTag) :
    b.Imported m [] rows rows := ⟨rows, [], (List.append_nil rows).symm, rfl, rfl⟩

theorem Imported.cons (hkeys : ((i :: items).map Item.key).Nodup)
    (hone : b.ImportedOne m i rows rows₁) (h : b.Imported m items rows₁ rows') :
    b.Imported m (i :: items) rows rows' := by
  obtain ⟨kept, added, rfl, hkept, hadded⟩ := h
  rw [List.map_cons, List.nodup_cons] at hkeys
  -- whether a later item has a tag is not the business of the first one
  have hlater : items.filter (b.lacksTag rows₁) = items.filter (b.lacksTag rows) := by
    refine List.filter_congr fun j hj => ?_
    have hne : j.key ≠ i.key := fun heq => hkeys.1 (heq ▸ List.mem_map_of_mem hj)
    rw [lacksTag, lacksTag, hone.others _ hne]
  rw [hlater] at hadded
  rcases hone.ends with ⟨hlacks, hrows₁⟩ | ⟨hlacks, tag, rfl, hblank⟩
  · refine ⟨kept, added, rfl, ?_, ?_⟩
    · rw [hkept, hrows₁]
      rfl
    · rw [List.filter_cons_of_neg (by simp [hlacks]), hadded]
  · -- the new row is the last of those that the later items find
    have hcontent : tag.content = i.key := congrArg ChildTag.content hblank
    have hnone : Tables.childTagIn (rows.map ChildTag.undated) i.key = none := by
      have hnone := (Bool.and_eq_true_iff.1 hlacks).2
      rw [childTagIn_undated, Option.isNone_iff_eq_none.1 hnone, Option.map_none]
    have hnew : tag.undated.content ∉ items.map Item.key := by
      rw [← hcontent] at hkeys
      exact hkeys.1
    rw [List.map_append, List.map_singleton, settle_append_of_not_mem hnew] at hkept
    obtain ⟨kept, last, rfl, hsettled, hlast⟩ := List.map_eq_append_iff.1 hkept
    obtain ⟨tag', rfl, htag'⟩ := List.map_eq_singleton_iff.1 hlast
    refine ⟨kept, tag' :: added, by simp, ?_, ?_⟩
    · rw [hsettled, settle, settle, List.foldl_cons, settleOne_of_none hnone]
    · have hblank' : tag'.unstamped = tag.unstamped := by
        rw [← ChildTag.unstamped_undated, htag', ChildTag.unstamped_undated]
      rw [List.filter_cons_of_pos hlacks, List.map_cons, List.map_cons, hadded, hblank', hblank]

/-- Whatever the order in which items with distinct keys are imported, the rows are the same but for
identifiers and times. -/
theorem Imported.sameRows {rows₂ : List ChildTag} (hperm : items.Perm items')
    (hkeys : (items.map Item.key).Nodup) (h₁ : b.Imported m items rows rows₁)
    (h₂ : b.Imported m items' rows rows₂) : Tables.SameRows rows rows₁ rows₂ := by
  obtain ⟨kept₁, added₁, rfl, hkept₁, hadded₁⟩ := h₁
  obtain ⟨kept₂, added₂, rfl, hkept₂, hadded₂⟩ := h₂
  refine ⟨kept₁, added₁, kept₂, added₂, rfl, rfl, ?_, ?_, ?_⟩
  · have hundated : ∀ ts : List ChildTag,
        (ts.map ChildTag.undated).map ChildTag.id = ts.map ChildTag.id :=
      fun ts => List.map_map.trans rfl
    rw [← hundated kept₁, hkept₁, map_id_settle, hundated]
  · rw [hkept₁, hkept₂, settle_perm hperm hkeys]
  · rw [hadded₁, hadded₂]
    exact (hperm.filter _).map _

end Rulebook

end CourseBlueprint
