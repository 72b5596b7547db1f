import CourseBlueprint.Proofs.Command.DryRun
import CourseBlueprint.Proofs.Save.Deletions

/-!
# What edits and syncs record of deletions

Where no column is called like the mark of a deletion, an edit sets the mark of a copy exactly if it is
a user's, deletes the copy and is answered, and never takes it away (`edit_recordsDeletion_iff`). A sync
sets no mark. It takes the mark away exactly if it is to write the state of a copy of which anything is
restricted (`Reimports.recordsDeletion_iff`).
-/

namespace CourseBlueprint

open Reconciliation (Plan)

/-! ## Edits -/

namespace Command

variable {b : Rulebook} {s s' : Store} {content : ContentKey}

/-- A copy that was saved is still shown with its tag. -/
theorem seen_of_save {c : Context} {i : Item} {tag : ChildTag} {r : Result SaveOutcome} {d : Desk}
    (hready : s.Ready) (htag : s.stored.childTag? content = .ok (some tag))
    (hsave : (b.save c .noop).run ⟨s, i, [], []⟩ = (r, d)) : ∃ changes time,
      d.store.seen.childTag? content = .ok (some (tag.withChanges changes time)) := by
  have hopen : s.isOpen = true := hready.isOpen_of_held htag
  have hevolves : s.Evolves d.store :=
    (Rulebook.evolves_save hready.clock .noop).of_run hsave (.refl s)
  obtain ⟨changes, time, hheld⟩ := hevolves.steps.childTag? htag
  exact ⟨changes, time, by rw [Store.seen_of_isOpen (hevolves.isOpen hopen), hheld]⟩

/-- A user's save of an edited copy is tracked on the tag of the copy. -/
theorem tracks_editedItem {tag : ChildTag} (hs : s.Orderly b)
    (htag : s.stored.childTag? tag.content = .ok (some tag)) (changes : Changes) :
    b.Tracks ⟨s, editedItem tag changes, [], []⟩ tag := by
  obtain ⟨id, hid, hmarks⟩ := hs.marks htag
  refine ⟨hs.ready.clock, isCopy_editedItem changes hid hmarks, isNew_editedItem tag changes, ?_⟩
  rw [tagOwner_editedItem]
  exact htag

/-- The ends of an edit: it failed before it saved anything, or it was a save of the edited copy, and
is answered unless the save failed. -/
inductive EditEnds (b : Rulebook) (s : Store) (content : ContentKey) (changes : Changes) :
    Result Report → Store → Prop
  | stopped {e : Failure} : EditEnds b s content changes (.error e) s
  | failed {tag : ChildTag} {e : Failure} {d : Desk}
      (htag : s.stored.childTag? content = .ok (some tag))
      (hsave : (b.save (if changes.system then .system else .user) .noop).run
        ⟨s, editedItem tag changes, [], []⟩ = (.error e, d)) :
      EditEnds b s content changes (.error e) d.store
  | answered {tag : ChildTag} {outcome : SaveOutcome} {d : Desk} {report : Report}
      (htag : s.stored.childTag? content = .ok (some tag))
      (hsave : (b.save (if changes.system then .system else .user) .noop).run
        ⟨s, editedItem tag changes, [], []⟩ = (.ok outcome, d))
      (hreport : report.rejected = none ↔ ∃ done, outcome = .saved done) :
      EditEnds b s content changes (.ok report) d.store

theorem edit_ends {changes : Changes} {r : Result Report} (hready : s.Ready)
    (h : (edit b content changes).run s = (r, s')) : EditEnds b s content changes r s' := by
  rw [edit] at h
  rcases Action.run_bind_ends h with ⟨e, htag, rfl⟩ | ⟨tag, s₁, htag, h⟩
  · rw [run_copyTag] at htag
    obtain ⟨-, rfl⟩ := Prod.mk.inj htag
    exact .stopped
  rw [run_copyTag] at htag
  obtain ⟨hfound, rfl⟩ := Prod.mk.inj htag
  obtain ⟨-, hheld⟩ := Store.isOpen_of_seen (bind_ofOption_eq_ok.1 hfound)
  simp only at h
  split at h
  · obtain ⟨rfl, rfl⟩ := Prod.mk.inj h
    exact .stopped
  rcases Action.run_bind_ends h with ⟨e, hon, rfl⟩ | ⟨⟨outcome, d⟩, s₂, hon, h⟩
  · obtain ⟨saved, d, hsave, rfl⟩ := run_on_ends hon
    cases saved with
    | error e' =>
      rw [Work.on, Action.run_of, hsave] at hon
      obtain rfl := Except.error.inj (Prod.mk.inj hon).1
      exact .failed hheld hsave
    | ok outcome => cases hon.symm.trans (Work.run_on_eq_ok.2 ⟨hsave, rfl⟩)
  · obtain ⟨hsave, rfl⟩ := Work.run_on_eq_ok.1 hon
    obtain ⟨changes', time, hseen⟩ := seen_of_save hready hheld hsave
    simp only at h
    rw [Action.run_read (Store.run_childTag? content d.store), hseen] at h
    obtain ⟨rfl, rfl⟩ := Prod.mk.inj h
    refine .answered hheld hsave ?_
    cases outcome with
    | rejected rejection => simp
    | saved done => simp

section Edit

variable {edited : ContentKey} {changes : Changes} (hs : s.Orderly b)
  (hmark : manuallyDeleted ∉ (b.registry content.kind).allColumns)
include hs hmark

/-- The save of an edited copy leaves the marks of deletions, but for a user's that is not rejected and
deletes the copy. -/
theorem recordsDeletion_of_edited {tag : ChildTag} {saved : Result SaveOutcome} {d : Desk}
    (htag : s.stored.childTag? edited = .ok (some tag))
    (hsave : (b.save (if changes.system then .system else .user) .noop).run
      ⟨s, editedItem tag changes, [], []⟩ = (saved, d)) :
    d.store.stored.RecordsDeletion content ↔ s.stored.RecordsDeletion content ∨
      edited = content ∧ changes.system = false ∧ (∃ done, saved = .ok (.saved done)) ∧
        (editedItem tag changes).deletes = true := by
  have hcontent : tag.content = edited := Store.content_of_childTag? htag
  have howner : (editedItem tag changes).tagOwner = edited :=
    (tagOwner_editedItem tag changes).trans hcontent
  by_cases hown : edited = content ∧ changes.system = false
  · obtain ⟨rfl, huser⟩ := hown
    rw [huser] at hsave
    have hiff := Rulebook.recordsDeletion_of_user (tracks_editedItem hs (hcontent ▸ htag) changes)
      (by rw [schemaOf_editedItem, hcontent]; exact hmark) hsave
    rw [howner] at hiff
    rw [hiff, Stored.recordsDeletion_iff htag]
    simp [huser]
  · -- a system edit is not recorded, and other content is not touched
    obtain ⟨huntracked, hnoImport⟩ :
        (if changes.system then Context.system else .user).untracked = changes.system ∧
          (if changes.system then Context.system else .user).isImport = false := by
      cases changes.system with
      | false => exact ⟨rfl, rfl⟩
      | true => exact ⟨rfl, rfl⟩
    have hpermits := Rulebook.permits_save hs.ready.clock hsave
    constructor
    · intro hafter
      rcases hpermits.recordsDeletion_before hafter with hbefore | ⟨-, htracked, hcontent⟩
      · exact .inl hbefore
      · rw [huntracked] at htracked
        exact absurd ⟨howner.symm.trans hcontent, htracked⟩ hown
    · rintro (hbefore | ⟨hsame, huser, -⟩)
      · rcases hpermits.recordsDeletion_after hbefore with hafter | ⟨himport, -⟩
        · exact hafter
        · rw [hnoImport] at himport
          cases himport
      · exact absurd ⟨hsame, huser⟩ hown

/-- An edit leaves the marks of deletions, but for a user's that deletes its copy and is answered. -/
theorem edit_recordsDeletion_iff {r : Result Report} (h : (edit b edited changes).run s = (r, s')) :
    s'.stored.RecordsDeletion content ↔ s.stored.RecordsDeletion content ∨
      edited = content ∧ changes.system = false ∧ ∃ tag report,
        s.stored.childTag? content = .ok (some tag) ∧ r = .ok report ∧ report.rejected = none ∧
          (editedItem tag changes).deletes = true := by
  cases edit_ends hs.ready h with
  | stopped => simp
  | failed htag hsave =>
    rw [recordsDeletion_of_edited hs hmark htag hsave]
    simp
  | @answered tag outcome d report htag hsave hreport =>
    rw [recordsDeletion_of_edited hs hmark htag hsave]
    refine or_congr_right (and_congr_right ?_)
    rintro rfl
    simp [htag, hreport]

end Edit

/-! ## Syncs -/

/-- To write the state of a copy that was deleted is to bring it back. -/
theorem bringsBack_copyWanted {tag : ChildTag} {assignments : List Assignment}
    (hmark : manuallyDeleted ∈ tag.changes)
    (hpending : tag.content.kind.stateColumn ∈ (copyWanted tag assignments).pending.keys) :
    Plan.bringsBack tag (copyWanted tag assignments) = true := by
  have hdeleted : tag.isManuallyDeleted = true := decide_eq_true hmark
  have hcolumn : (copyWanted tag assignments).stateColumn = tag.content.kind.stateColumn := by
    rw [Item.stateColumn, key_copyWanted]
  have hbefore : (copyBefore tag).original tag.content.kind.stateColumn =
      .string Item.deletedState := by
    rw [Item.original_of_not_pending rfl, value_copyBefore, if_pos ⟨hdeleted, rfl⟩]
  have hsame : ((copyWanted tag assignments).original tag.content.kind.stateColumn).same
      ((copyBefore tag).original tag.content.kind.stateColumn) = true := by
    rw [copyWanted_eq]
    exact Item.original_setAll _ _ _
  obtain ⟨change, hchange⟩ := Option.isSome_iff_exists.1 (Dict.mem_keys_iff.1 hpending)
  rw [Item.original, hchange, hbefore] at hsame
  rw [Plan.bringsBack, hdeleted, Bool.and_true, Plan.isUndelete, hcolumn, hchange]
  exact Json.isText_of_same hsame

/-- A sync that rewrites a copy leaves the store that the import of the copy has left. -/
theorem Rewrites.store_eq {id : Uuid} {master : ContentKey} {assignments : List Assignment}
    {report : Report} {tag : ChildTag} {d : Desk} {r : Result Report}
    (h : Rewrites b s id master assignments report tag d)
    (hsync : (sync b id master assignments).run s = (r, s')) : s' = d.store := by
  obtain ⟨sub, t, masterTag, tags, m, s₁, done, hbegun, hfind, hsave, -, -⟩ := h.imported
  have himport : (saveImported b m (copyWanted tag assignments)).run s₁ =
      (.ok (done, d.item), d.store) := by
    rw [saveImported, Action.run_bind_ok (Work.run_on_eq_ok.2 ⟨hsave, rfl⟩)]
    rfl
  rw [hbegun.run_resync hfind himport] at hsync
  exact (Prod.mk.inj hsync).2.symm

/-- Whether anything about the copy that a tag stands for is restricted in the child course. -/
def RestrictsCopy (b : Rulebook) (s : Store) (tag : ChildTag) : Prop :=
  ((b.isRestricted .user .any).run ⟨s, copyItem tag ∅, [], []⟩).1 = .ok true

/-- What a sync goes by that imports a copy: the tag that is held for it, and the locks that restrict
it. -/
structure Reimports (b : Rulebook) (s : Store) (tag : ChildTag) (assignments : List Assignment)
    (m : Migration) (s₁ : Store) : Prop where
  ready : s₁.Ready
  held : s.stored.childTag? tag.content = .ok (some tag)
  found : s₁.stored.childTag? tag.content = .ok (some tag)
  copy : b.isCopy (copyWanted tag assignments) = true
  restricts : ((copyWanted tag assignments).locksIn m).restrict
    (b.registry tag.content.kind) .any = true ↔ RestrictsCopy b s tag

section Syncs

variable {id : Uuid} {master : ContentKey} {assignments : List Assignment} {sub : Subscription}
  {t : Template} {masterTag : MasterTag} {tags : List ChildTag} {m : Migration} {s₁ : Store}
  {tag : ChildTag} {d : Desk} {report : Report}

theorem SyncBegun.reimports (h : SyncBegun b s id master sub t masterTag tags m s₁)
    (hs : s.Orderly b) (hexisting : (tags.find? fun tag =>
      tag.migrationId = some (t.migrationId b.settings.marker master)) = some tag) :
    Reimports b s tag assignments m s₁ := by
  have hsyncing := h.syncing hs.ready hs.keyed
  have hid : tag.migrationId = some (t.migrationId b.settings.marker master) := by
    simpa using List.find?_some hexisting
  obtain ⟨rows, hrows, hdistinct, hmem⟩ := hsyncing.contents
  obtain ⟨masterTags, hmasterTags, hlocks⟩ := hsyncing.locks
  have hrow : tag ∈ rows := ((hmem tag).1 (List.mem_of_find?_eq_some hexisting)).1
  have hheld : s.stored.childTag? tag.content = .ok (some tag) := by
    rw [Store.childTag?_of_rows hrows, Tables.childTagIn,
      (Tables.find?_eq_some_iff hdistinct).2 ⟨hrow, rfl⟩]
  have hmarks := b.settings.marks_migrationId t master
  have hopen : s.isOpen = true := hs.ready.isOpen_of_held hheld
  refine ⟨hsyncing.ready, hheld, by rw [hsyncing.childTag?, hheld],
    isCopy_copyWanted assignments hid hmarks, ?_⟩
  rw [RestrictsCopy, run_isRestricted_stored .any hopen hmasterTags rfl hid hmarks, Except.ok.injEq,
    locksIn_copyWanted m assignments hid, hlocks]
  rfl

namespace Reimports

variable (h : Reimports b s tag assignments m s₁)
include h

/-- An import that fails leaves the tag of the copy. -/
theorem childTag?_of_failed {e : Failure} {s' : Store}
    (hsaved : (saveImported b m (copyWanted tag assignments)).run s₁ = (.error e, s')) :
    s'.stored.childTag? tag.content = .ok (some tag) := by
  have hfound : s₁.stored.childTag? (copyWanted tag assignments).key = .ok (some tag) := by
    rw [key_copyWanted, h.found]
  rw [saveImported] at hsaved
  rcases Action.run_bind_ends hsaved with ⟨e', hon, -⟩ | ⟨⟨outcome, d⟩, s₂, hon, hsaved⟩
  · obtain ⟨r, d, hsave, rfl⟩ := run_on_ends hon
    cases r with
    | ok outcome => cases hon.symm.trans (Work.run_on_eq_ok.2 ⟨hsave, rfl⟩)
    | error e =>
      have hleft := Rulebook.childTag?_of_failed_import h.ready.clock rfl h.copy
        (isNew_copyWanted tag assignments) hfound hsave
      rw [key_copyWanted] at hleft
      exact hleft
  · obtain ⟨hsave, -⟩ := Work.run_on_eq_ok.1 hon
    cases outcome with
    | saved done => cases hsaved
    | rejected rejection =>
      have hcheck := Rulebook.save_rejected_iff.1 hsave
      rw [Rulebook.run_check_import rfl] at hcheck
      cases hcheck

variable {done : SaveReport} (hsave : (b.save (.importing m) .noop).run
  ⟨s₁, copyWanted tag assignments, [], []⟩ = (.ok (.saved done), d))
include hsave

/-- An import takes the mark of a deletion away exactly if it is to write the state of a copy of which
anything is restricted. -/
theorem recordsDeletion_iff (hmark : manuallyDeleted ∉ (b.registry tag.content.kind).allColumns) :
    d.store.stored.RecordsDeletion tag.content ↔ manuallyDeleted ∈ tag.changes ∧
      ¬ (tag.content.kind.stateColumn ∈ (copyWanted tag assignments).pending.keys ∧
        RestrictsCopy b s tag) := by
  have hkey := key_copyWanted tag assignments
  have hiff := Rulebook.recordsDeletion_of_import h.ready.clock rfl h.copy
    (isNew_copyWanted tag assignments) (by rw [hkey]; exact h.found) hsave
    (by rw [Rulebook.schemaOf, hkey]; exact hmark)
  rw [Rulebook.schemaOf, hkey, h.restricts] at hiff
  refine hiff.trans (and_congr_right fun hmem => not_congr (and_congr_left fun _ => ?_))
  refine ⟨fun hback => ?_, bringsBack_copyWanted hmem⟩
  have hpending := Plan.mem_pending_of_bringsBack hback
  rw [Item.stateColumn, hkey] at hpending
  exact hpending

/-- An import writes the state of a copy that was deleted only if anything about the copy is
restricted. -/
theorem restricts_of_saved (hmem : manuallyDeleted ∈ tag.changes)
    (hstate : tag.content.kind.stateColumn ∈ d.item.saved.keys) :
    tag.content.kind.stateColumn ∈ (copyWanted tag assignments).pending.keys ∧
      RestrictsCopy b s tag := by
  have hkey := key_copyWanted tag assignments
  obtain ⟨hpending, hkept⟩ := (Rulebook.mem_saved_of_import h.ready.clock rfl h.copy
    (isNew_copyWanted tag assignments) (by rw [hkey]; exact h.found) hsave).1 hstate
  refine ⟨hpending, ?_⟩
  cases hany : ((copyWanted tag assignments).locksIn m).restrict
    (b.registry tag.content.kind) .any with
  | true => exact h.restricts.1 hany
  | false =>
    -- where nothing is restricted, the state is taken back
    refine absurd (Plan.mem_takeBack_full.2 (.inr ⟨?_, ?_, ?_⟩)) hkept
    · rw [Item.stateColumn, hkey]
    · exact bringsBack_copyWanted hmem hpending
    · rw [Rulebook.schemaOf, hkey, hany]

end Reimports

/-- A sync that makes a copy leaves the marks of deletions. -/
theorem Syncing.recordsDeletion_of_copied {made : Result ChildTag}
    (h : Syncing b s id master sub t tags m s₁)
    (hmade : (createCopy b m master.kind (t.migrationId b.settings.marker master) assignments).run
      s₁ = (made, s')) (content : ContentKey) :
    s'.stored.RecordsDeletion content ↔ s.stored.RecordsDeletion content := by
  constructor
  · intro hafter
    obtain ⟨attributes, pending, outcome, d, hsave, rfl⟩ := run_createCopy_ends hmade
    have hclock : s₁.afterId.supply.ShowsDates :=
      (Store.later_afterId s₁).showsDates h.ready.clock
    rcases (Rulebook.permits_save hclock hsave).recordsDeletion_before hafter with hbefore | ⟨hnone, -⟩
    · exact (Stored.recordsDeletion_congr h.childTags content).1 hbefore
    · cases hnone
  · rintro ⟨tag, htag, hmem⟩
    obtain rfl := Store.content_of_childTag? htag
    exact ⟨tag, h.childTag?_of_copied hmade htag, hmem⟩

/-- A sync leaves the mark of a piece of content, or rewrites it and is answered. -/
theorem rewrites_or_recordsDeletion_iff {r : Result Report} (hs : s.Orderly b) (content : ContentKey)
    (h : (sync b id master assignments).run s = (r, s')) :
    (∃ report tag d, r = .ok report ∧ tag.content = content ∧
      Rewrites b s id master assignments report tag d) ∨
    (s'.stored.RecordsDeletion content ↔ s.stored.RecordsDeletion content) := by
  cases sync_ends h with
  | stopped => exact .inr .rfl
  | untracked hkind hsub ht htracked =>
    cases tracked hs.ready htracked with
    | failed hlater hopen hstored => exact .inr (by rw [hstored])
  | unread hkind hsub ht htracked =>
    obtain ⟨-, -, -, -, -, hchildTags⟩ := (tracked hs.ready htracked).of_ok
    exact .inr (Stored.recordsDeletion_congr hchildTags content)
  | copied hbegun hnone hmade =>
    exact .inr ((hbegun.syncing hs.ready hs.keyed).recordsDeletion_of_copied hmade content)
  | @resynced sub t masterTag tags m s₁ _ existing saved hbegun hexisting hsaved =>
    have himports : Reimports b s existing assignments m s₁ := hbegun.reimports hs hexisting
    have hsame := Stored.recordsDeletion_congr
      (hbegun.syncing hs.ready hs.keyed).childTags content
    by_cases hcontent : existing.content = content
    · cases saved with
      | error e =>
        have hleft := himports.childTag?_of_failed hsaved
        rw [hcontent] at hleft
        refine .inr ?_
        rw [Stored.recordsDeletion_iff hleft, Stored.recordsDeletion_iff (hcontent ▸ himports.held)]
      | ok done =>
        obtain ⟨d, hsave, rfl⟩ := of_saveImported hsaved
        obtain ⟨changes, time, hseen⟩ := seen_of_save himports.ready himports.found hsave
        rw [hseen] at h ⊢
        obtain ⟨tag, d', answered, hrewrites, hanswered, htag⟩ := rewrites_of_sync h (by simp)
        refine .inl ⟨_, tag, d', rfl, ?_, hrewrites⟩
        rw [← htag, ← hcontent]
        rw [← List.singleton_inj.1 hanswered]
        rfl
    · obtain ⟨outcome, d, hsave, rfl⟩ := run_saveImported_ends hsaved
      refine .inr (Iff.trans ?_ hsame)
      refine (Rulebook.permits_save himports.ready.clock hsave).recordsDeletion_iff_of_import rfl ?_
      rw [key_copyWanted]
      exact hcontent

end Syncs

end Command

end CourseBlueprint
