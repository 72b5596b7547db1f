import CourseBlueprint.Proofs.Command.Rewriting
import CourseBlueprint.Proofs.Settings

/-!
# Deletions that a sync settles

What becomes of a copy that the child course has deleted when its content is synced and its state is not
assigned. Where nothing is locked, the copy is kept deleted. Where anything is, the deletion is no longer
recorded, and the copy is restored unless its state lies in a category that is not locked and has
recorded changes (`deletion_settled`). A preview before it only tells whether anything is locked.
-/

namespace CourseBlueprint

open Reconciliation (Plan)

/-- Whether anything is locked of the copies that are of a kind: everything at once, or a category that
is registered for the kind. -/
def Store.LocksAny (b : Rulebook) (s : Store) (t : Template) (master : ContentKey) (k : Kind) : Prop :=
  s.LockOn b t master .everything ∨ ∃ g ∈ (b.registry k).categories, s.LockOn b t master (.only g)

theorem Store.locksAny_iff {b : Rulebook} {s : Store} {t : Template} {master : ContentKey} {k : Kind}
    {held : String → Restrictions} (hkeyed : s.Keyed b) (hlocks : s.stored.locks = .ok held) :
    s.LocksAny b t master k ↔
      (held (t.migrationId b.settings.marker master)).restrict (b.registry k) .any = true := by
  rw [Restrictions.restrict_any_iff, LocksAny, lockOn_iff hkeyed hlocks]
  refine or_congr_right (exists_congr fun g => and_congr_right fun _ => ?_)
  exact lockOn_iff hkeyed hlocks

namespace Command

/-- Whether the child course's changes keep a sync from writing the state of a copy: they lie in a
category that governs the state and has no lock of its own. -/
def KeepsState (b : Rulebook) (s : Store) (t : Template) (master : ContentKey) (tag : ChildTag) : Prop :=
  ∃ g, tag.content.kind.stateColumn ∈ (b.registry tag.content.kind).columns g ∧
    ¬ s.LockOn b t master (.only g) ∧ tag.Records (b.registry tag.content.kind) g

theorem keepsState_iff {b : Rulebook} {s : Store} {t : Template} {master : ContentKey} {tag : ChildTag}
    {held : String → Restrictions} (hkeyed : s.Keyed b) (hlocks : s.stored.locks = .ok held) :
    KeepsState b s t master tag ↔
      ∃ g, tag.content.kind.stateColumn ∈ (b.registry tag.content.kind).columns g ∧
        (held (t.migrationId b.settings.marker master)).isLocked g = false ∧
        tag.Records (b.registry tag.content.kind) g := by
  refine exists_congr fun g => and_congr_right fun _ => and_congr_left fun _ => ?_
  rw [Store.lockOn_iff hkeyed hlocks, Bool.not_eq_true]
  rfl

/-- A copy was kept deleted: the deletion is recorded, and the state was not written. -/
structure KeptDeleted (st : Stored) (tag : ChildTag) (i : Item) : Prop where
  recorded : st.RecordsDeletion tag.content
  unsaved : i.saved.get? tag.content.kind.stateColumn = none
  value : i.value tag.content.kind.stateColumn = .string Item.deletedState

/-- A copy was restored: the deletion is no longer recorded, and the state was written. -/
structure Restored (st : Stored) (tag : ChildTag) (i : Item) : Prop where
  forgotten : ¬ st.RecordsDeletion tag.content
  saved : i.saved.get? tag.content.kind.stateColumn =
    some ⟨.string Item.deletedState, .string Item.activeState⟩
  value : i.value tag.content.kind.stateColumn = .string Item.activeState

variable {b : Rulebook} {s s₁ : Store} {t : Template} {master : ContentKey} {tag : ChildTag}
  {assignments : List Assignment} {d : Desk} {r : Restrictions} {held : String → Restrictions}

/-! ## What the plan says of a deletion -/

/-- The deletion is forgotten exactly if the copy is to be brought back and anything is restricted. -/
theorem mark_mem_forget_iff (hback : Plan.bringsBack tag (copyWanted tag assignments) = true) :
    manuallyDeleted ∈ (syncPlan b r tag assignments).forget ↔
      r.restrict (b.registry tag.content.kind) .any = true := by
  rw [mem_forget_syncPlan]
  constructor
  · rintro (⟨-, g, hgoverned, hlocked⟩ | ⟨-, -, hany⟩)
    · obtain ⟨columns, hentry, -⟩ := Schema.mem_columns.1 hgoverned
      exact Restrictions.restrict_any_iff.2
        (.inr ⟨g, Schema.mem_categories.2 ⟨columns, Schema.mem_entries.1 hentry⟩, hlocked⟩)
    · exact hany
  · exact fun hany => .inr ⟨rfl, hback, hany⟩

section Deleted

variable (hmark : manuallyDeleted ∈ tag.changes)
  (hstate : tag.content.kind.stateColumn ∉ assignments.map Prod.fst)
include hmark hstate

theorem bringsBack_of_not_assigned : Plan.bringsBack tag (copyWanted tag assignments) = true := by
  refine bringsBack_copyWanted hmark (Dict.mem_keys_iff.2 ?_)
  rw [(state_copyWanted hmark hstate).1]
  rfl

/-- The state is taken back if nothing is restricted, or by the child course's changes. -/
theorem state_mem_takeBack_iff :
    tag.content.kind.stateColumn ∈ (syncPlan b r tag assignments).takeBack ↔
      r.restrict (b.registry tag.content.kind) .any = false ∨
      ∃ g, tag.content.kind.stateColumn ∈ (b.registry tag.content.kind).columns g ∧
        r.isLocked g = false ∧ tag.Records (b.registry tag.content.kind) g := by
  have hpending : tag.content.kind.stateColumn ∈ (copyWanted tag assignments).pending.keys := by
    rw [Dict.mem_keys_iff, (state_copyWanted hmark hstate).1]
    rfl
  rw [mem_takeBack_syncPlan, bringsBack_of_not_assigned hmark hstate, or_comm]
  simp [hpending]

/-! ## What the import makes of it -/

namespace Rewritten

variable (h : Rewritten b r tag assignments s₁ d)
include h

theorem recordsDeletion_iff : d.store.stored.RecordsDeletion tag.content ↔
    ¬ r.restrict (b.registry tag.content.kind) .any = true := by
  obtain ⟨time, hheld⟩ := h.held
  rw [Stored.recordsDeletion_iff hheld]
  show manuallyDeleted ∈ tag.changes \ _ ↔ _
  rw [NameSet.mem_diff, mark_mem_forget_iff (bringsBack_of_not_assigned hmark hstate)]
  exact and_iff_right hmark

/-- A state that is taken back is not written, and is that of deleted content. -/
theorem state_of_takenBack
    (htaken : tag.content.kind.stateColumn ∈ (syncPlan b r tag assignments).takeBack) :
    d.item.saved.get? tag.content.kind.stateColumn = none ∧
      d.item.value tag.content.kind.stateColumn = .string Item.deletedState := by
  rw [h.saved, h.value, if_pos htaken, if_pos htaken, Item.original,
    (state_copyWanted hmark hstate).1]
  exact ⟨rfl, rfl⟩

/-- Any other is written. -/
theorem state_of_written
    (hleft : tag.content.kind.stateColumn ∉ (syncPlan b r tag assignments).takeBack) :
    d.item.saved.get? tag.content.kind.stateColumn =
        some ⟨.string Item.deletedState, .string Item.activeState⟩ ∧
      d.item.value tag.content.kind.stateColumn = .string Item.activeState := by
  rw [h.saved, h.value, if_neg hleft, if_neg hleft]
  exact state_copyWanted hmark hstate

/-- Where nothing is restricted, the copy is kept deleted. -/
theorem keptDeleted (hany : ¬ r.restrict (b.registry tag.content.kind) .any = true) :
    KeptDeleted d.store.stored tag d.item := by
  obtain ⟨hsaved, hvalue⟩ := h.state_of_takenBack hmark hstate
    ((state_mem_takeBack_iff hmark hstate).2 (.inl (Bool.eq_false_iff.2 hany)))
  exact ⟨(h.recordsDeletion_iff hmark hstate).2 hany, hsaved, hvalue⟩

/-- Where anything is, the copy is restored unless the child course's changes keep the state. -/
theorem restored_iff (hany : r.restrict (b.registry tag.content.kind) .any = true) :
    Restored d.store.stored tag d.item ↔
      ¬ ∃ g, tag.content.kind.stateColumn ∈ (b.registry tag.content.kind).columns g ∧
        r.isLocked g = false ∧ tag.Records (b.registry tag.content.kind) g := by
  have htaken := state_mem_takeBack_iff (b := b) (r := r) hmark hstate
  rw [hany] at htaken
  constructor
  · intro hrestored hkeeps
    have hunsaved := (h.state_of_takenBack hmark hstate (htaken.2 (.inr hkeeps))).1
    rw [hrestored.saved] at hunsaved
    cases hunsaved
  · intro hfree
    obtain ⟨hsaved, hvalue⟩ := h.state_of_written hmark hstate
      fun hback => (htaken.1 hback).elim (fun hnot => nomatch hnot) hfree
    exact ⟨fun hrecorded => (h.recordsDeletion_iff hmark hstate).1 hrecorded hany, hsaved, hvalue⟩

end Rewritten

end Deleted

end Command

/-- What a preview tells of the deletion of a copy, and what the next sync makes of it, if it does not
assign the state: where nothing is locked, the copy is kept deleted; where anything is, the deletion is
forgotten, and the copy is restored exactly if the child course's changes do not keep its state. -/
theorem deletion_settled (b : Rulebook) {events : List Event} {s₀ s₁ : Store} {id : Uuid}
    {t : Template} {master : ContentKey} {tag : ChildTag} {texts : List String}
    {assignments : List Assignment} {synced : Report} (hclock : s₀.supply.ShowsDates)
    (hempty : s₀.stored = .of .empty) (hcopy : (runEvents b events s₀).CopyOf b id t master tag)
    (hmark : manuallyDeleted ∈ tag.changes) (htexts : Assignment.ofTexts texts = .ok assignments)
    (hstate : tag.content.kind.stateColumn ∉ assignments.map Prod.fst)
    (hsync : ((Request.sync id master texts).run b).run (runEvents b events s₀) = (.ok synced, s₁)) :
    (∃ previewed restores, ((Request.preview tag.content).run b).run (runEvents b events s₀) =
        (.ok previewed, runEvents b events s₀) ∧
      previewed.messages.head? = some (Command.deletionMessage tag.content restores) ∧
      (restores = true ↔ (runEvents b events s₀).LocksAny b t master tag.content.kind)) ∧
    ∃ d, Command.Rewrites b (runEvents b events s₀) id master assignments synced tag d ∧
      s₁ = d.store ∧
      (¬ (runEvents b events s₀).LocksAny b t master tag.content.kind →
        Command.KeptDeleted s₁.stored tag d.item) ∧
      ((runEvents b events s₀).LocksAny b t master tag.content.kind →
        ¬ s₁.stored.RecordsDeletion tag.content ∧
        (Command.Restored s₁.stored tag d.item ↔
          ¬ Command.KeepsState b (runEvents b events s₀) t master tag)) := by
  have hs : (runEvents b events s₀).Orderly b :=
    orderly_runEvents (Store.orderly_of_empty hclock hempty) events
  have htidy : (runEvents b events s₀).stored.Tidy b := tidy_runEvents hclock hempty events
  obtain ⟨rows, hrows⟩ := hs.keyed.masterTags
  have hlocks := Stored.locks_of_rows hrows
  rw [Request.run_sync b _ id master htexts] at hsync
  obtain ⟨d, hrewrites, rfl⟩ := Command.rewrites_of_copy hs htidy hcopy hsync
  obtain ⟨s₂, -, -, hrewritten⟩ := hrewrites.rewritten hs hcopy hlocks
  refine ⟨?_, d, hrewrites, rfl, fun hfree => ?_, fun hlocked => ?_⟩
  · obtain ⟨kept, hrun, -⟩ := Command.run_preview hs hcopy hlocks
    refine ⟨_, _, hrun, ?_, (Store.locksAny_iff hs.keyed hlocks).symm⟩
    rw [ChildTag.isManuallyDeleted, decide_eq_true hmark]
    rfl
  · rw [Store.locksAny_iff hs.keyed hlocks] at hfree
    exact hrewritten.keptDeleted hmark hstate hfree
  · rw [Store.locksAny_iff hs.keyed hlocks] at hlocked
    refine ⟨fun hrecorded => (hrewritten.recordsDeletion_iff hmark hstate).1 hrecorded hlocked, ?_⟩
    rw [Command.keepsState_iff hs.keyed hlocks]
    exact hrewritten.restored_iff hmark hstate hlocked

/-! ## A page that is deleted in the child course -/

namespace Sample

/-- The locks that a store holds under an identifier. -/
theorem locks_of_locksUnder {s : Store} {id : String} {r : Restrictions}
    (h : (s.stored.masterTags.toOption.map fun rows => MasterTag.locksUnder rows id) = some r) :
    ∃ held, s.stored.locks = .ok held ∧ held id = r := by
  obtain ⟨rows, hrows, hlocks⟩ := Option.map_eq_some_iff.1 h
  exact ⟨_, Stored.locks_of_rows (Result.toOption_eq_some.1 hrows), hlocks⟩

/-- The restrictions with the content locked. -/
def contentLocked : Restrictions := Restrictions.none.set (.only .content) true

/-- The copy of a page is deleted, and then the content of the page is locked. -/
def lockAfterDeletion : List Event :=
  firstSync ++ [deleting] ++ [.request (.setLocks ⟨10⟩ page [.only .content] true)]

/-- The store after that, and the next sync. -/
def lockedAfterDeletion : Store := runEvents rulebook lockAfterDeletion (.inMemory supply)

def syncAfterDeletion : Result Report × Store :=
  ((Request.sync (supply.ids 1) page []).run rulebook).run lockedAfterDeletion

/-- A preview tells that the copy will be restored, and so it is. -/
theorem deletion_settled_page :
    (∃ previewed, ((Request.preview (copyTag []).content).run rulebook).run lockedAfterDeletion =
        (.ok previewed, lockedAfterDeletion) ∧
      previewed.messages.head? = some (Command.deletionMessage (copyTag []).content true)) ∧
    ∃ i, Command.Restored syncAfterDeletion.2.stored (copyTag []) i := by
  have hcopy : lockedAfterDeletion.CopyOf rulebook (supply.ids 1) madeTemplate page
      (copyTag [manuallyDeleted]) := copyOf_page rfl (by decide +kernel)
  obtain ⟨held, hlocks, hheld⟩ : ∃ held, lockedAfterDeletion.stored.locks = .ok held ∧
      held (madeTemplate.migrationId rulebook.settings.marker page) = contentLocked :=
    locks_of_locksUnder (by decide +kernel)
  obtain ⟨synced, hsynced⟩ : ∃ synced, syncAfterDeletion.1.toOption = some synced :=
    Option.isSome_iff_exists.1 (by decide +kernel)
  have hkeyed : lockedAfterDeletion.Keyed rulebook :=
    (orderly_runEvents (Store.orderly_of_empty showsDates_supply rfl) lockAfterDeletion).keyed
  have hany : lockedAfterDeletion.LocksAny rulebook madeTemplate page (copyTag []).content.kind :=
    (Store.locksAny_iff hkeyed hlocks).2 (by rw [hheld]; decide)
  have hfree : ¬ Command.KeepsState rulebook lockedAfterDeletion madeTemplate page
      (copyTag [manuallyDeleted]) := by
    rintro ⟨g, hgoverned, -⟩
    revert hgoverned
    cases g <;> decide
  obtain ⟨⟨previewed, restores, hpreview, hmessage, hiff⟩, d, -, -, -, hsettled⟩ :=
    deletion_settled rulebook showsDates_supply rfl hcopy (by decide) rfl (by decide)
      (Prod.ext (Result.toOption_eq_some.1 hsynced) rfl)
  rw [hiff.2 hany] at hmessage
  have hrestored := (hsettled hany).2.2 hfree
  exact ⟨⟨previewed, hpreview, hmessage⟩, d.item, hrestored.forgotten, hrestored.saved, hrestored.value⟩

/-- A deployment that counts the state of pages among their settings. -/
def governingState : Config :=
  { Config.usual with
    extraColumns := some ((∅ : Dict (Dict (List String))).put "wiki_page"
      ((∅ : Dict (List String)).put "settings" ["workflow_state"])) }

def stateGoverned : Rulebook :=
  ⟨governingState, Registry.builtin.restrict .wikiPage .settings ["workflow_state"], .usual⟩

theorem rulebook_governingState : governingState.rulebook = .ok stateGoverned := rfl

/-- There the copy of a page is changed in its settings and deleted, and then the content of the page is
locked. -/
def lockAfterChangeAndDeletion : List Event :=
  firstSync ++ [.request (.edit (copyTag []).content ["editing_roles=teachers"] true false)] ++
    [.request (.setLocks ⟨10⟩ page [.only .content] true)]

/-- The store after that, and the next sync. -/
def lockedAfterChangeAndDeletion : Store :=
  runEvents stateGoverned lockAfterChangeAndDeletion (.inMemory supply)

def syncAfterChangeAndDeletion : Result Report × Store :=
  ((Request.sync (supply.ids 1) page []).run stateGoverned).run lockedAfterChangeAndDeletion

/-- The next sync forgets the deletion and leaves the copy deleted: locks do not always restore. -/
theorem not_kept_or_restored :
    ¬ ∀ (config : Config) (b : Rulebook) (events : List Event) (s₀ s₁ : Store) (id : Uuid)
      (t : Template) (master : ContentKey) (tag : ChildTag) (texts : List String)
      (assignments : List Assignment) (synced : Report) (d : Desk),
      config.rulebook = .ok b → s₀.supply.ShowsDates → s₀.stored = .of .empty →
      (runEvents b events s₀).CopyOf b id t master tag → manuallyDeleted ∈ tag.changes →
      Assignment.ofTexts texts = .ok assignments →
      tag.content.kind.stateColumn ∉ assignments.map Prod.fst →
      ((Request.sync id master texts).run b).run (runEvents b events s₀) = (.ok synced, s₁) →
      Command.Rewrites b (runEvents b events s₀) id master assignments synced tag d →
      ((runEvents b events s₀).LocksAny b t master tag.content.kind →
        Command.Restored s₁.stored tag d.item) ∧
      (¬ (runEvents b events s₀).LocksAny b t master tag.content.kind →
        Command.KeptDeleted s₁.stored tag d.item) := by
  intro h
  have hcopy : lockedAfterChangeAndDeletion.CopyOf stateGoverned (supply.ids 1) madeTemplate page
      (copyTag ["editing_roles", manuallyDeleted]) := copyOf_page rfl (by decide +kernel)
  have hmark : manuallyDeleted ∈ (copyTag ["editing_roles", manuallyDeleted]).changes := by decide
  have hs : lockedAfterChangeAndDeletion.Orderly stateGoverned :=
    orderly_runEvents (Store.orderly_of_empty showsDates_supply rfl) lockAfterChangeAndDeletion
  have htidy : lockedAfterChangeAndDeletion.stored.Tidy stateGoverned :=
    tidy_runEvents showsDates_supply rfl lockAfterChangeAndDeletion
  obtain ⟨held, hlocks, hheld⟩ : ∃ held, lockedAfterChangeAndDeletion.stored.locks = .ok held ∧
      held (madeTemplate.migrationId stateGoverned.settings.marker page) = contentLocked :=
    locks_of_locksUnder (by decide +kernel)
  obtain ⟨synced, hsynced⟩ : ∃ synced, syncAfterChangeAndDeletion.1.toOption = some synced :=
    Option.isSome_iff_exists.1 (by decide +kernel)
  have hsync : ((Request.sync (supply.ids 1) page []).run stateGoverned).run
      lockedAfterChangeAndDeletion = (.ok synced, syncAfterChangeAndDeletion.2) :=
    Prod.ext (Result.toOption_eq_some.1 hsynced) rfl
  have hcommand := hsync
  rw [Request.run_sync stateGoverned _ _ _ (rfl : Assignment.ofTexts [] = .ok [])] at hcommand
  obtain ⟨d, hrewrites, hstore⟩ := Command.rewrites_of_copy hs htidy hcopy hcommand
  obtain ⟨s₂, -, -, hrewritten⟩ := hrewrites.rewritten hs hcopy hlocks
  rw [hheld] at hrewritten
  have hany : lockedAfterChangeAndDeletion.LocksAny stateGoverned madeTemplate page .wikiPage :=
    (Store.locksAny_iff hs.keyed hlocks).2 (by rw [hheld]; decide)
  have hrestored := (h governingState stateGoverned lockAfterChangeAndDeletion (.inMemory supply)
    syncAfterChangeAndDeletion.2 (supply.ids 1) madeTemplate page _ [] [] synced d
    rulebook_governingState showsDates_supply rfl hcopy hmark rfl (by decide) hsync hrewrites).1 hany
  rw [hstore] at hrestored
  -- the settings are not locked, and the child course's change of one of them keeps the state
  exact (hrewritten.restored_iff hmark (by decide) (by decide)).1 hrestored
    ⟨.settings, by decide, rfl, "editing_roles", by decide, by decide⟩

end Sample

end CourseBlueprint
