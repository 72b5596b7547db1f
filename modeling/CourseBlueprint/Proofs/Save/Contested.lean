import CourseBlueprint.Proofs.Save.ReconciliationEffect
import CourseBlueprint.Proofs.Save.Stages
import CourseBlueprint.Proofs.Settings

/-!
# Columns of several categories

A reconciliation goes through the categories one by one, and a configuration may put a column into
several. If one of them is locked and another is not, the column is contested: its recorded change is
forgotten for the sake of the one, and the write of the import is taken back for the sake of the other,
so that it is answered both as overwritten and as preserved (`Rulebook.contests_iff`). The copy keeps the
value of the child course then, but nothing protects it any more. Where each column is in one category,
as in the built-in registry, none is contested.
-/

namespace CourseBlueprint

/-- Whether no column is in two categories, and the mark of a deletion in none. -/
structure Schema.Separate (s : Schema) : Prop where
  apart : ∀ g g' column, column ∈ s.columns g → column ∈ s.columns g' → g = g'
  unmarked : ∀ g, manuallyDeleted ∉ s.columns g

/-- What is built in puts no column into two categories. -/
theorem Registry.separate_builtin (k : Kind) : (builtin k).Separate := by
  have hall : (∀ g ∈ Category.all, ∀ column ∈ (builtin k).columns g, column ≠ manuallyDeleted ∧
      ∀ g' ∈ Category.all, column ∈ (builtin k).columns g' → g = g') := by
    cases k with
    | _ => decide
  refine ⟨fun g g' column hg hg' => ?_, fun g hg => ?_⟩
  · exact (hall g g.mem_all column hg).2 g' g'.mem_all hg'
  · exact (hall g g.mem_all _ hg).1 rfl

namespace Reconciliation

variable {r : Restrictions} {s : Schema} {tag : ChildTag} {i : Item} {column : String}

/-- A recorded column with a pending write that is both to be forgotten and to be taken back: a category
without a lock governs it, and one with a lock does, or it is the mark of a deletion from which the item
is brought back. -/
structure Contested (r : Restrictions) (s : Schema) (tag : ChildTag) (i : Item) (column : String) :
    Prop where
  recorded : column ∈ tag.changes
  pending : column ∈ i.pending.keys
  unlocked : ∃ g, column ∈ s.columns g ∧ r.isLocked g = false
  forgotten : (∃ g, column ∈ s.columns g ∧ r.isLocked g = true) ∨
    column = manuallyDeleted ∧ BringsBack tag i ∧ r.restrict s .any = true

/-- A lock on a category that governs a column restricts something. -/
theorem restrict_any_of_locked (h : ∃ g, column ∈ s.columns g ∧ r.isLocked g = true) :
    r.restrict s .any = true := by
  obtain ⟨g, hcolumn, hlocked⟩ := h
  obtain ⟨columns, hmem, -⟩ := Schema.mem_columns.1 hcolumn
  exact Restrictions.restrict_any_iff.2
    (.inr ⟨g, Schema.mem_categories.2 ⟨columns, Schema.mem_entries.1 hmem⟩, hlocked⟩)

theorem contested_iff : Contested r s tag i column ↔
    Clears r s tag i column ∧ Reverts r s tag i column := by
  constructor
  · rintro ⟨hrecorded, hpending, ⟨g, hcolumn, hunlocked⟩, hforgotten⟩
    exact ⟨⟨hrecorded, hforgotten⟩,
      .inl ⟨hpending, g, hcolumn, hunlocked, column, hcolumn, hrecorded⟩⟩
  · rintro ⟨⟨hrecorded, hforgotten⟩, ⟨hpending, g, hcolumn, hunlocked, -⟩ | ⟨rfl, -, hfree⟩⟩
    · exact ⟨hrecorded, hpending, ⟨g, hcolumn, hunlocked⟩, hforgotten⟩
    · -- the state is only taken back where nothing is restricted
      have hany : r.restrict s .any = true := by
        rcases hforgotten with hlocked | ⟨-, -, hany⟩
        · exact restrict_any_of_locked hlocked
        · exact hany
      rw [hany] at hfree
      cases hfree

theorem Contested.not_separate (h : Contested r s tag i column) : ¬ s.Separate := by
  intro hs
  obtain ⟨g, hcolumn, hunlocked⟩ := h.unlocked
  rcases h.forgotten with ⟨g', hcolumn', hlocked⟩ | ⟨rfl, -, -⟩
  · rw [hs.apart g g' column hcolumn hcolumn', hlocked] at hunlocked
    cases hunlocked
  · exact hs.unmarked g hcolumn

theorem telling_eq_partiallyOverwritten {cleared reverted overwritten preserved : NameSet} :
    telling cleared reverted = .partiallyOverwritten overwritten preserved ↔
      cleared.isEmpty = false ∧ overwritten = cleared ∧ preserved = reverted := by
  unfold telling
  cases cleared.isEmpty with
  | true => cases reverted.isEmpty <;> simp
  | false => simp [eq_comm]

end Reconciliation

/-- Whether an import contests a column of the item: its own tag records the column, and the locks in
force have its change both forgotten and taken back. -/
def Desk.Contests (d : Desk) (b : Rulebook) (m : Migration) (column : String) : Prop :=
  b.isCopy d.item = true ∧ ∃ tag, d.store.stored.childTag? d.item.key = .ok (some tag) ∧
    Reconciliation.Contested (d.item.locksIn m) (b.schemaOf d.item) tag d.item column

namespace Rulebook

open Reconciliation (Plan Contested telling)

variable {b : Rulebook} {c : Context} {m : Migration} {d d' : Desk} {answer : Reconciliation}

/-- A reconciliation that answers tells what the plan for the tag amounts to. -/
theorem Reconciled.answer_eq (h : b.Reconciled m d (.ok answer) d') {tag : ChildTag}
    (htag : d.store.stored.childTag? d.item.key = .ok (some tag)) :
    answer = telling (b.planIn m tag d.item).forget (.ofList (b.planIn m tag d.item).takeBack) := by
  rw [telling_plan]
  cases h with
  | clean hfound hclean =>
    obtain ⟨rfl, -⟩ := hfound.eq_of_held htag
    obtain ⟨hforget, htakeBack⟩ := planIn_of_clean (b := b) (m := m) hclean d.item
    rw [Plan.outcome, NameSet.isEmpty_iff.2 hforget, htakeBack]
    rfl
  | carriedOut hfound =>
    obtain ⟨rfl, -⟩ := hfound.eq_of_held htag
    rfl

/-- What a reconciliation of a copy without a tag answers. -/
theorem Reconciled.answer_of_untagged (h : b.Reconciled m d (.ok answer) d')
    (hnone : d.store.stored.childTag? d.item.key = .ok none) : answer = .noOverlap := by
  cases h with
  | clean => rfl
  | carriedOut hfound hchanges =>
    rw [hfound.changes_of_not_held hnone] at hchanges
    cases hchanges

theorem contests_of_held (hcopy : b.isCopy d.item = true) {tag : ChildTag}
    (htag : d.store.stored.childTag? d.item.key = .ok (some tag)) (column : String) :
    d.Contests b m column ↔
      column ∈ (b.planIn m tag d.item).forget ∧ column ∈ (b.planIn m tag d.item).takeBack := by
  unfold Desk.Contests planIn
  rw [Reconciliation.mem_forget_iff_clears, Reconciliation.mem_takeBack_iff_reverts,
    ← Reconciliation.contested_iff]
  simp [hcopy, htag]

theorem not_contests_of_untagged (hnone : d.store.stored.childTag? d.item.key = .ok none)
    (column : String) : ¬ d.Contests b m column := by
  rintro ⟨-, tag, htag, -⟩
  rw [hnone] at htag
  cases htag

/-- Whether an answer tells of a column as both overwritten and preserved. -/
def TellsBoth (answer : Reconciliation) (column : String) : Prop :=
  ∃ overwritten preserved, answer = .partiallyOverwritten overwritten preserved ∧
    column ∈ overwritten ∧ column ∈ preserved

/-- Whether the write of a recorded column was taken back, and the column is not recorded any more. -/
structure Unprotects (d d' : Desk) (column : String) : Prop where
  recorded : d.Records column
  pending : column ∈ d.item.pending.keys
  undone : column ∉ d'.item.pending.keys
  forgotten : ¬ d'.Records column

theorem Reconciled.tellsBoth_iff (h : b.Reconciled m d (.ok answer) d') {tag : ChildTag}
    (htag : d.store.stored.childTag? d.item.key = .ok (some tag)) (column : String) :
    TellsBoth answer column ↔
      column ∈ (b.planIn m tag d.item).forget ∧ column ∈ (b.planIn m tag d.item).takeBack := by
  rw [h.answer_eq htag]
  constructor
  · rintro ⟨overwritten, preserved, htells, hoverwritten, hpreserved⟩
    obtain ⟨-, rfl, rfl⟩ := Reconciliation.telling_eq_partiallyOverwritten.1 htells
    exact ⟨hoverwritten, NameSet.mem_ofList.1 hpreserved⟩
  · rintro ⟨hforget, htakeBack⟩
    have hsome : (b.planIn m tag d.item).forget.isEmpty = false :=
      Bool.eq_false_iff.2 fun hempty => NameSet.isEmpty_iff.1 hempty column hforget
    exact ⟨_, _, Reconciliation.telling_eq_partiallyOverwritten.2 ⟨hsome, rfl, rfl⟩, hforget,
      NameSet.mem_ofList.2 htakeBack⟩

theorem Reconciled.unprotects_iff (h : b.Reconciled m d (.ok answer) d') {tag : ChildTag}
    (htag : d.store.stored.childTag? d.item.key = .ok (some tag)) (column : String) :
    Unprotects d d' column ↔
      column ∈ (b.planIn m tag d.item).forget ∧ column ∈ (b.planIn m tag d.item).takeBack := by
  have hpending := (h.carriedOut_of_held htag).pending column
  constructor
  · rintro ⟨⟨tag', htag', hrecorded⟩, hbefore, hafter, hforgotten⟩
    rw [htag] at htag'
    obtain rfl := Option.some.inj (Except.ok.inj htag')
    rw [h.records_iff htag] at hforgotten
    refine ⟨Decidable.not_not.1 fun hkept => hforgotten ⟨hrecorded, hkept⟩, ?_⟩
    refine Decidable.not_not.1 fun hkept => ?_
    rw [if_neg hkept] at hpending
    rw [Dict.mem_keys_iff, hpending, ← Dict.mem_keys_iff] at hafter
    exact hafter hbefore
  · rintro ⟨hforget, htakeBack⟩
    rw [if_pos htakeBack] at hpending
    refine ⟨⟨tag, htag, Plan.mem_changes_of_mem_forget hforget⟩, ?_, ?_, ?_⟩
    · obtain ⟨change, hchange⟩ := (Reconciliation.mem_takeBack_iff_reverts.1 htakeBack).pending
      exact Dict.mem_keys_iff.2 (by rw [hchange]; rfl)
    · rw [Dict.mem_keys_iff, hpending]
      exact Bool.false_ne_true
    · rw [h.records_iff htag]
      exact fun hrecorded => hrecorded.2 hforget

/-- A column that is told of as both overwritten and preserved is one that the import contests, and so is
one that loses its protection though the write of the import was taken back. There is none where each
column is in one category. -/
theorem contests_iff (hclock : d.store.supply.ShowsDates) (hc : c.migration = some m)
    (h : (b.reconcile c).run d = (.ok answer, d')) (column : String) :
    (TellsBoth answer column ↔ d.Contests b m column) ∧
    (Unprotects d d' column ↔ d.Contests b m column) ∧
    ((b.schemaOf d.item).Separate → ¬ d.Contests b m column) := by
  -- where nothing is reconciled, nothing is told of or taken back
  have hidle : ¬ d.Contests b m column → answer = .noOverlap → d'.item.pending = d.item.pending →
      (TellsBoth answer column ↔ d.Contests b m column) ∧
        (Unprotects d d' column ↔ d.Contests b m column) := by
    rintro hfree rfl hpending
    refine ⟨iff_of_false ?_ hfree, iff_of_false ?_ hfree⟩
    · rintro ⟨overwritten, preserved, htells, -⟩
      cases htells
    · rintro ⟨-, hbefore, hafter, -⟩
      rw [hpending] at hafter
      exact hafter hbefore
  have hboth : (TellsBoth answer column ↔ d.Contests b m column) ∧
      (Unprotects d d' column ↔ d.Contests b m column) := by
    cases hcopy : b.isCopy d.item with
    | false =>
      rw [run_reconcile_of_idle (.inr hcopy)] at h
      obtain ⟨hanswer, rfl⟩ := Prod.mk.inj h
      refine hidle ?_ (Except.ok.inj hanswer).symm rfl
      rintro ⟨hcopy', -⟩
      rw [hcopy] at hcopy'
      cases hcopy'
    | true =>
      have hreconciled := reconciled hc hcopy hclock h
      rcases hreconciled.held_or_untagged with hnone | ⟨tag, htag⟩
      · exact hidle (not_contests_of_untagged hnone column) (hreconciled.answer_of_untagged hnone)
          (hreconciled.untouched_of_untagged hnone).pending
      · rw [contests_of_held hcopy htag]
        exact ⟨hreconciled.tellsBoth_iff htag column, hreconciled.unprotects_iff htag column⟩
  refine ⟨hboth.1, hboth.2, fun hs hcontests => ?_⟩
  obtain ⟨-, tag, -, hcontested⟩ := hcontests
  exact hcontested.not_separate hs

end Rulebook

/-! ## A body that is counted among the settings too -/

namespace Sample

/-- A deployment that counts the body of pages among their settings as well. -/
def sharingBody : Config :=
  { Config.usual with
    extraColumns := some ((∅ : Dict (Dict (List String))).put "wiki_page"
      ((∅ : Dict (List String)).put "settings" ["body"])) }

def bodyShared : Rulebook :=
  ⟨sharingBody, Registry.builtin.restrict .wikiPage .settings ["body"], .usual⟩

theorem rulebook_sharingBody : sharingBody.rulebook = .ok bodyShared := rfl

/-- There the content of a page is locked and its settings are not, and an import writes the body that the
child course has changed. -/
theorem run_reconcile_bodyShared : ∃ d',
    (bodyShared.reconcile (.importing (importUnder (.only .content)))).run (desk ["body"]) =
      (.ok (.partiallyOverwritten (.ofList ["body"]) (.ofList ["body"])), d') := ⟨_, rfl⟩

/-- The body is contested there; with the built-in categories it is not. -/
theorem contests_body :
    (∃ d' overwritten preserved,
      (bodyShared.reconcile (.importing (importUnder (.only .content)))).run (desk ["body"]) =
        (.ok (.partiallyOverwritten overwritten preserved), d') ∧
      Rulebook.TellsBoth (.partiallyOverwritten overwritten preserved) "body" ∧
      Rulebook.Unprotects (desk ["body"]) d' "body") ∧
    ¬ (desk ["body"]).Contests rulebook (importUnder (.only .content)) "body" := by
  obtain ⟨d', hrun⟩ := run_reconcile_bodyShared
  obtain ⟨htells, hunprotects, -⟩ := Rulebook.contests_iff showsDates_supply rfl hrun "body"
  have hcontests : (desk ["body"]).Contests bodyShared (importUnder (.only .content)) "body" :=
    ⟨rfl, tag page ["body"], rfl, by decide, by decide, ⟨.settings, by decide, rfl⟩,
      .inl ⟨.content, by decide, rfl⟩⟩
  have hrun' : (rulebook.reconcile (.importing (importUnder (.only .content)))).run (desk ["body"]) =
      (.ok (.partiallyOverwritten (.ofList ["body"]) ∅), _) := rfl
  exact ⟨⟨d', _, _, hrun, htells.2 hcontests, hunprotects.2 hcontests⟩,
    (Rulebook.contests_iff showsDates_supply rfl hrun' "body").2.2 (Registry.separate_builtin _)⟩

/-- So overwritten and preserved columns are not always different ones, and what is preserved does not
always stay protected. -/
theorem not_apart_or_protected :
    ¬ ∀ (config : Config) (b : Rulebook) (m : Migration) (d d' : Desk) (answer : Reconciliation)
      (column : String), config.rulebook = .ok b → d.store.supply.ShowsDates →
      (b.reconcile (.importing m)).run d = (.ok answer, d') →
      ¬ Rulebook.TellsBoth answer column ∧ ¬ Rulebook.Unprotects d d' column := by
  intro h
  obtain ⟨d', hrun⟩ := run_reconcile_bodyShared
  exact (h sharingBody bodyShared _ _ _ _ "body" rulebook_sharingBody showsDates_supply hrun).1
    ⟨_, _, rfl, by decide, by decide⟩

end Sample

end CourseBlueprint
