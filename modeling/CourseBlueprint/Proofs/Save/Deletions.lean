import CourseBlueprint.Proofs.Save.ChildTags
import CourseBlueprint.Proofs.Save.Retries
import CourseBlueprint.Proofs.Save.SurvivingEdit

/-!
# What saves record of deletions

Where no column is called like the mark of a deletion, a user's save of a copy records a deletion
exactly if it deletes the copy (`recordsDeletion_of_user`), and never takes the mark away. An import
sets none. It takes the mark away exactly if it is to bring the copy back and anything about the copy
is restricted (`recordsDeletion_of_import`).
-/

namespace CourseBlueprint

open Reconciliation (Plan)

/-- Whether the child tag of a piece of content records that the content was deleted. -/
def Stored.RecordsDeletion (st : Stored) (content : ContentKey) : Prop :=
  ∃ tag, st.childTag? content = .ok (some tag) ∧ manuallyDeleted ∈ tag.changes

/-- Whether saving the item deletes it. -/
def Item.deletes (i : Item) : Bool := i.changesApplied.savedDeletion

theorem Stored.recordsDeletion_iff {st : Stored} {content : ContentKey} {tag : ChildTag}
    (htag : st.childTag? content = .ok (some tag)) :
    st.RecordsDeletion content ↔ manuallyDeleted ∈ tag.changes := by
  constructor
  · rintro ⟨tag', htag', hmark⟩
    rw [htag] at htag'
    obtain rfl := Option.some.inj (Except.ok.inj htag')
    exact hmark
  · exact fun hmark => ⟨tag, htag, hmark⟩

theorem Stored.recordsDeletion_congr {st st' : Stored} (h : st'.childTags = st.childTags)
    (content : ContentKey) : st'.RecordsDeletion content ↔ st.RecordsDeletion content := by
  rw [RecordsDeletion, RecordsDeletion, childTag?, childTag?, h]

/-- Setting the changes of a tag says whether its content was deleted, and nothing of other content. -/
theorem Stored.SetsChanges.recordsDeletion_iff {st st' : Stored} {tag : ChildTag} {changes : NameSet}
    (h : st.SetsChanges tag changes st') (content : ContentKey) :
    st'.RecordsDeletion content ↔
      if content = tag.content then manuallyDeleted ∈ changes else st.RecordsDeletion content := by
  obtain ⟨⟨tag', htag', hchanges⟩, hothers⟩ := Store.childTag?_of_setsChanges h
  split
  · next heq => rw [heq, Stored.recordsDeletion_iff htag', hchanges]
  · next hne => rw [RecordsDeletion, RecordsDeletion, hothers content hne]

namespace Rulebook

variable {b : Rulebook} {c : Context} {m : Migration} {write : Persist} {d d₁ d' : Desk}
  {content : ContentKey} {tag : ChildTag}

/-! ## Any save -/

/-- Only a user's save of an item that the tag stands for sets the mark. -/
theorem Permits.recordsDeletion_before {st : Stored} (h : b.Permits c d st)
    (hmark : st.RecordsDeletion content) : d.store.stored.RecordsDeletion content ∨
      c.migration = none ∧ c.untracked = false ∧ d.item.tagOwner = content := by
  cases h with
  | unchanged => exact .inl hmark
  | @created m rows made hc hcopy hrows hnone hsubscription hcontent hid hchanges =>
    obtain ⟨tag, htag, hmark⟩ := hmark
    rw [Store.childTag?_withChildTags, Tables.childTagIn_append] at htag
    cases hheld : Tables.childTagIn rows content with
    | some held =>
      rw [hheld] at htag
      obtain rfl := Option.some.inj (Except.ok.inj htag)
      exact .inl ⟨held, by rw [Store.childTag?_of_rows hrows, hheld], hmark⟩
    | none =>
      rw [hheld] at htag
      have hmade : tag = made := by
        by_cases hkey : made.content = content
        · simpa [hkey, eq_comm] using Except.ok.inj htag
        · simp [hkey] at htag
      rw [hmade, hchanges] at hmark
      exact absurd hmark (NameSet.not_mem_empty _)
  | @removed m tag columns _ hc hcontent hoverruled hstored =>
    rw [hstored.recordsDeletion_iff] at hmark
    split at hmark
    · next heq =>
      obtain ⟨rows, time, hrows, hheld, -⟩ := hstored
      refine .inl ⟨tag, ?_, (NameSet.mem_diff.1 hmark).1⟩
      rw [heq, Store.childTag?_of_rows hrows, hheld]
    · exact .inl hmark
  | added hc htracked howner hgoverned hstored =>
    rw [hstored.recordsDeletion_iff] at hmark
    split at hmark
    · next heq => exact .inr ⟨hc, htracked, howner.symm.trans heq.symm⟩
    · exact .inl hmark

/-- Only an import of the item itself takes the mark away. -/
theorem Permits.recordsDeletion_after {st : Stored} (h : b.Permits c d st)
    (hmark : d.store.stored.RecordsDeletion content) :
    st.RecordsDeletion content ∨ c.isImport = true ∧ d.item.key = content := by
  obtain ⟨tag, htag, hmark⟩ := hmark
  obtain ⟨changes, time, htag', hexplains⟩ := h.childTag? htag
  by_cases hafter : manuallyDeleted ∈ changes
  · exact .inl ⟨_, htag', hafter⟩
  · obtain ⟨himport, hkey, -⟩ := hexplains.lost manuallyDeleted hmark hafter
    exact .inr ⟨himport, hkey.trans (Store.content_of_childTag? htag)⟩

/-- Imports leave the marks of other content. -/
theorem Permits.recordsDeletion_iff_of_import {st : Stored} (h : b.Permits c d st)
    (hc : c.migration = some m) (hother : d.item.key ≠ content) :
    st.RecordsDeletion content ↔ d.store.stored.RecordsDeletion content := by
  constructor
  · intro hmark
    rcases h.recordsDeletion_before hmark with hbefore | ⟨hnone, -⟩
    · exact hbefore
    · rw [hc] at hnone
      cases hnone
  · intro hmark
    exact (h.recordsDeletion_after hmark).resolve_right fun hown => hother hown.2

/-! ## Saves by users -/

/-- The deletion is among what is to be recorded exactly if the item was deleted. -/
theorem mem_columnsToRecord_manuallyDeleted {i : Item}
    (hmark : manuallyDeleted ∉ (b.schemaOf i).allColumns) :
    manuallyDeleted ∈ b.columnsToRecord i none ↔ i.savedDeletion = true := by
  rw [mem_columnsToRecord_iff]
  constructor
  · rintro (⟨-, hgoverned, -⟩ | ⟨-, hdeleted⟩)
    · exact absurd hgoverned hmark
    · exact hdeleted
  · exact fun hdeleted => .inr ⟨rfl, hdeleted⟩

/-- A user's save of a copy that is there records a deletion if it deletes the copy. -/
theorem recordsDeletion_of_user {r : Result SaveOutcome} (ht : b.Tracks d tag)
    (hmark : manuallyDeleted ∉ (b.schemaOf d.item).allColumns)
    (h : (b.save .user .noop).run d = (r, d')) :
    d'.store.stored.RecordsDeletion d.item.tagOwner ↔ manuallyDeleted ∈ tag.changes ∨
      (∃ report, r = .ok (.saved report)) ∧ d.item.deletes = true := by
  by_cases hsaved : ∃ report, r = .ok (.saved report)
  · obtain ⟨report, rfl⟩ := hsaved
    obtain ⟨tag', htag', hchanges⟩ := ht.of_saved (fun _ => rfl) h
    have hdeletes : manuallyDeleted ∈ b.columnsToRecord d.item.changesApplied none ↔
        d.item.deletes = true := mem_columnsToRecord_manuallyDeleted hmark
    rw [Stored.recordsDeletion_iff htag', hchanges, diverges_iff, hdeletes]
    simp
  · obtain ⟨ht', howner, -⟩ := ht.of_failed (fun _ => rfl) h fun report hr => hsaved ⟨report, hr⟩
    have hheld := ht'.held
    rw [howner] at hheld
    rw [Stored.recordsDeletion_iff hheld]
    simp [hsaved]

/-! ## Imports -/

section Import

variable (hclock : d.store.supply.ShowsDates) (hc : c.migration = some m)
  (hcopy : b.isCopy d.item = true) (hnew : d.item.isNew = false)
  (htag : d.store.stored.childTag? d.item.key = .ok (some tag))
include hclock hc hcopy hnew htag

/-- An import that fails leaves the tag of its item as it was. -/
theorem childTag?_of_failed_import {e : Failure} (h : (b.save c .noop).run d = (.error e, d')) :
    d'.store.stored.childTag? d.item.key = .ok (some tag) := by
  cases stages h with
  | unchecked hcheck =>
    rw [run_check_import hc] at hcheck
    cases hcheck
  | unprepared hcheck hprepare =>
    rw [run_check_import hc] at hcheck
    obtain ⟨-, rfl⟩ := Prod.mk.inj hcheck
    rw [run_prepare_of_not_isNew hnew] at hprepare
    rcases (reconciled hc hcopy hclock hprepare).untouched_of_error.ownTag with hown | ⟨hnone, -⟩
    · rw [hown, htag]
    · rw [htag] at hnone
      cases hnone
  | unwritten hcheck hprepare hwrite => cases hwrite
  | unrecorded hcheck hprepare hwrite hrecord =>
    rw [run_check_import hc] at hcheck
    obtain ⟨-, rfl⟩ := Prod.mk.inj hcheck
    rw [hnew, record, if_neg Bool.false_ne_true,
      run_recordChanges_of_skips (by simp [skips, Context.isImport, hc])] at hrecord
    cases hrecord

variable {report : SaveReport} (h : (b.save c .noop).run d = (.ok (.saved report), d'))
include h

/-- An import saves what was pending and is not taken back. -/
theorem mem_saved_of_import {column : String} : column ∈ d'.item.saved.keys ↔
    column ∈ d.item.pending.keys ∧ column ∉ (b.planIn m tag d.item).takeBack := by
  obtain ⟨d₁, hreconciled, rfl⟩ := reconciled_of_saved hclock hc hcopy hnew h
  show column ∈ d₁.item.pending.keys ↔ _
  rw [Dict.mem_keys_iff, Dict.mem_keys_iff, (hreconciled.carriedOut_of_held htag).pending]
  by_cases htaken : column ∈ (b.planIn m tag d.item).takeBack
  · simp [htaken]
  · simp [htaken]

/-- An import leaves the mark unless it is to bring the copy back and anything is restricted. -/
theorem recordsDeletion_of_import (hmark : manuallyDeleted ∉ (b.schemaOf d.item).allColumns) :
    d'.store.stored.RecordsDeletion d.item.key ↔ manuallyDeleted ∈ tag.changes ∧
      ¬ (Plan.bringsBack tag d.item = true ∧
        (d.item.locksIn m).restrict (b.schemaOf d.item) .any = true) := by
  obtain ⟨d₁, hreconciled, rfl⟩ := reconciled_of_saved hclock hc hcopy hnew h
  obtain ⟨-, attributes, pending, kept, hitem⟩ := hreconciled.frame
  have hrecords := hreconciled.records_iff htag manuallyDeleted
  rw [planIn, Plan.mem_forget_full, Desk.Records, hitem] at hrecords
  refine hrecords.trans (and_congr_right fun hmem => not_congr ⟨?_, fun hback => .inr ⟨rfl, hback⟩⟩)
  rintro (⟨-, g, hgoverned, -⟩ | ⟨-, hback⟩)
  · exact absurd (Schema.mem_allColumns.2 ⟨g, hgoverned⟩) hmark
  · exact hback

end Import

end Rulebook

end CourseBlueprint
