import CourseBlueprint.Proofs.Command.DeletionFlag
import CourseBlueprint.Proofs.Command.LockHistory
import CourseBlueprint.Proofs.Store.Tidy

/-!
# What a sync makes of a copy

A sync of the blueprint content that a copy was made from finds the copy (`rewrites_of_copy`). What it
makes of the copy follows from the locks of the content, the tag of the copy and what is assigned alone
(`Rewritten`), by the plan of its reconciliation (`syncPlan`). So does what a preview answers of the
copy (`run_preview`).
-/

namespace CourseBlueprint

open Reconciliation (Plan)

/-! ## Tables after any events -/

namespace Request

variable {b : Rulebook} {s s' : Store}

/-- A request that names content which cannot belong to a blueprint changes nothing. -/
theorem store_run_of_not_allowed {r : Request} {k : ContentKey} (hk : k ∈ r.masters)
    (hkind : k.kind.allowedInBlueprint = false) (s : Store) : ((r.run b).run s).2 = s := by
  cases r with
  | sync id master texts =>
    obtain rfl := List.mem_singleton.1 hk
    cases htexts : Assignment.ofTexts texts with
    | error e =>
      rw [Request.run, htexts]
      rfl
    | ok assignments =>
      rw [run_sync b s id k htexts, Command.sync, hkind]
      rfl
  | setLocks course content locks on =>
    obtain rfl := List.mem_singleton.1 hk
    rw [Request.run, Command.setLocks, hkind]
    cases locks.isEmpty with
    | true => rfl
    | false => rfl
  | _ => exact absurd hk List.not_mem_nil

/-- So a request only tags and copies content that can belong to a blueprint. -/
theorem moves_allowed_run {r : Request} {result : Result Report} (hready : s.Ready)
    (h : (r.run b).run s = (result, s')) :
    s.Moves b (fun k => k.kind.allowedInBlueprint = true) s' := by
  by_cases hallowed : ∀ k ∈ r.masters, k.kind.allowedInBlueprint = true
  · exact (r.moves_run hready hallowed).of_run h .refl
  · push Not at hallowed
    obtain ⟨k, hk, hkind⟩ := hallowed
    have hsame := store_run_of_not_allowed (b := b) hk (Bool.eq_false_iff.2 hkind) s
    rw [h] at hsame
    rw [show s' = s from hsame]
    exact .refl

end Request

theorem moves_allowed_runEvents {b : Rulebook} {s : Store} (hready : s.Ready) (events : List Event) :
    s.Moves b (fun k => k.kind.allowedInBlueprint = true) (runEvents b events s) := by
  unfold runEvents
  induction events generalizing s with
  | nil => exact .refl
  | cons e events ih =>
    have hfirst : s.Moves b (fun k => k.kind.allowedInBlueprint = true) (e.after b s) := by
      cases e with
      | request r => exact Request.moves_allowed_run hready (Prod.eta ((r.run b).run s)).symm
      | refuseWrites on => exact (s.alike_refusingWrites on).move.moves
    exact hfirst.trans (ih (hfirst.ready hready))

theorem tidy_runEvents {b : Rulebook} {s : Store} (hclock : s.supply.ShowsDates)
    (hempty : s.stored = .of .empty) (events : List Event) :
    (runEvents b events s).stored.Tidy b := by
  refine (moves_allowed_runEvents (Store.ready_of_empty hclock hempty) events).tidy (fun _ h => h) ?_
  rw [hempty]
  exact Stored.tidy_empty b

/-! ## Setting the changes of a tag -/

/-- To set the changes of a tag to what they are changes no row. -/
theorem Stored.SetsChanges.refl {st : Stored} {tag : ChildTag}
    (htag : st.childTag? tag.content = .ok (some tag)) : st.SetsChanges tag tag.changes st := by
  obtain ⟨rows, hrows, hfind⟩ := Store.childTag?_eq_some htag
  refine ⟨rows, tag.updatedAt, hrows, hfind, ?_⟩
  rw [show tag.withChanges tag.changes tag.updatedAt = tag from rfl, Tables.replaceFirst_self hfind,
    Stored.withChildTags, ← hrows]

/-- What a reconciliation leaves of the rows: those there were, with what is forgotten taken from the
tag of the item. -/
theorem Rulebook.Reconciled.setsChanges {b : Rulebook} {m : Migration} {d d' : Desk} {tag : ChildTag}
    {reconciliation : Reconciliation} (h : b.Reconciled m d (.ok reconciliation) d')
    (hcontent : tag.content = d.item.key)
    (htag : d.store.stored.childTag? d.item.key = .ok (some tag)) :
    d'.store.isOpen = true ∧ d.store.stored.SetsChanges tag
      (tag.changes \ (b.planIn m tag d.item).forget) d'.store.stored := by
  cases h with
  | clean hfound hclean =>
    obtain ⟨rfl, hstored⟩ := hfound.eq_of_held htag
    obtain ⟨hforget, -⟩ := planIn_of_clean (b := b) (m := m) hclean d.item
    refine ⟨hfound.held.1, ?_⟩
    rw [diff_of_isEmpty (NameSet.isEmpty_iff.2 hforget), hstored]
    exact .refl (by rw [hcontent, htag])
  | @carriedOut tag' s s' hfound hchanges hlater hopen hstored =>
    obtain ⟨rfl, hsame⟩ := hfound.eq_of_held htag
    rw [(takenBack_frame _ _ _).1]
    refine ⟨hopen, ?_⟩
    rcases hstored with ⟨hkept, hstored⟩ | hstored
    · rw [hkept]
      show d.store.stored.SetsChanges tag' tag'.changes s'.stored
      rw [hstored, hsame]
      exact .refl (by rw [hcontent, htag])
    · rw [hsame] at hstored
      exact hstored

namespace Command

variable {b : Rulebook} {s s' s₁ : Store} {id : Uuid} {master : ContentKey}
  {assignments : List Assignment} {t : Template} {m : Migration} {tag : ChildTag} {d : Desk}
  {r : Restrictions} {key : String}

/-! ## The import of a copy -/

/-- What a sync is to forget of the recorded changes of a copy and to take back of what is wanted, where
the content has the given locks. -/
def syncPlan (b : Rulebook) (r : Restrictions) (tag : ChildTag) (assignments : List Assignment) : Plan :=
  .full r tag (copyWanted tag assignments) (b.registry tag.content.kind)

theorem planIn_copyWanted (hid : tag.migrationId = some key) :
    b.planIn m tag (copyWanted tag assignments) =
      syncPlan b ((m.find? key).getD .none) tag assignments := by
  rw [Rulebook.planIn, locksIn_copyWanted m assignments hid, Rulebook.schemaOf, key_copyWanted, syncPlan]

/-- What is forgotten: the recorded columns of categories with a lock of their own, and the deletion if
the copy is to be brought back and anything is restricted. -/
theorem mem_forget_syncPlan {x : String} :
    x ∈ (syncPlan b r tag assignments).forget ↔
      (x ∈ tag.changes ∧ ∃ g, x ∈ (b.registry tag.content.kind).columns g ∧ r.isLocked g = true) ∨
      x = manuallyDeleted ∧ Plan.bringsBack tag (copyWanted tag assignments) = true ∧
        r.restrict (b.registry tag.content.kind) .any = true :=
  Plan.mem_forget_full

/-- What is taken back: the pending columns of other categories with recorded changes, and the state if
the copy is to be brought back and nothing is restricted. -/
theorem mem_takeBack_syncPlan {x : String} :
    x ∈ (syncPlan b r tag assignments).takeBack ↔
      (x ∈ (copyWanted tag assignments).pending.keys ∧ ∃ g,
        x ∈ (b.registry tag.content.kind).columns g ∧ r.isLocked g = false ∧
          tag.Records (b.registry tag.content.kind) g) ∨
      x = tag.content.kind.stateColumn ∧ Plan.bringsBack tag (copyWanted tag assignments) = true ∧
        r.restrict (b.registry tag.content.kind) .any = false := by
  rw [syncPlan, Plan.mem_takeBack_full, Item.stateColumn, key_copyWanted]

/-- What the import of a copy has made of it, from a store `s` to the desk `d` that it has left: what
the plan forgets is taken from the recorded changes and nothing else changes in the rows, and what the
plan takes back is neither saved nor changed. -/
structure Rewritten (b : Rulebook) (r : Restrictions) (tag : ChildTag)
    (assignments : List Assignment) (s : Store) (d : Desk) : Prop where
  isOpen : d.store.isOpen = true
  rows : s.stored.SetsChanges tag (tag.changes \ (syncPlan b r tag assignments).forget) d.store.stored
  saved : ∀ column, d.item.saved.get? column =
    if column ∈ (syncPlan b r tag assignments).takeBack then none
    else (copyWanted tag assignments).pending.get? column
  value : ∀ column, d.item.value column =
    if column ∈ (syncPlan b r tag assignments).takeBack then
      (copyWanted tag assignments).original column
    else (copyWanted tag assignments).value column

/-- The tag that is held afterwards. -/
theorem Rewritten.held (h : Rewritten b r tag assignments s d) : ∃ time,
    d.store.stored.childTag? tag.content =
      .ok (some (tag.withChanges (tag.changes \ (syncPlan b r tag assignments).forget) time)) := by
  obtain ⟨rows, time, hrows, hfound, hstored⟩ := h.rows
  refine ⟨time, ?_⟩
  rw [hstored, Store.childTag?_withChildTags, Store.childTagIn_withChanges hfound, if_pos rfl]

theorem rewritten_of_import {done : SaveReport} (hclock : s.supply.ShowsDates)
    (hid : tag.migrationId = some key) (hmarks : b.settings.marks key = true)
    (hheld : s.stored.childTag? tag.content = .ok (some tag))
    (hsave : (b.save (.importing m) .noop).run ⟨s, copyWanted tag assignments, [], []⟩ =
      (.ok (.saved done), d)) :
    Rewritten b ((m.find? key).getD .none) tag assignments s d := by
  have hkey := key_copyWanted tag assignments
  have hcopy := isCopy_copyWanted assignments hid hmarks
  have hnew := isNew_copyWanted tag assignments
  have hheld' : s.stored.childTag? (copyWanted tag assignments).key = .ok (some tag) := by
    rw [hkey, hheld]
  obtain ⟨d₁, hreconciled, rfl⟩ := Rulebook.reconciled_of_saved hclock rfl hcopy hnew hsave
  obtain ⟨hopen, hrows⟩ := hreconciled.setsChanges hkey.symm hheld'
  have hdone := hreconciled.carriedOut_of_held hheld'
  rw [planIn_copyWanted hid] at hrows hdone
  exact ⟨hopen, hrows, hdone.pending, hdone.value⟩

/-! ## The state of a copy that was deleted -/

/-- Of a copy that was deleted a sync that does not assign the state is to write it. -/
theorem state_copyWanted (hmark : manuallyDeleted ∈ tag.changes)
    (hstate : tag.content.kind.stateColumn ∉ assignments.map Prod.fst) :
    (copyWanted tag assignments).pending.get? tag.content.kind.stateColumn =
        some ⟨.string Item.deletedState, .string Item.activeState⟩ ∧
      (copyWanted tag assignments).value tag.content.kind.stateColumn =
        .string Item.activeState := by
  have hdeleted : tag.isManuallyDeleted = true := decide_eq_true hmark
  have hbefore : (copyBefore tag).value tag.content.kind.stateColumn =
      .string Item.deletedState := by
    rw [value_copyBefore, if_pos ⟨hdeleted, rfl⟩]
  have hchanged : ((copyBefore tag).value tag.content.kind.stateColumn).same
      (.string Item.activeState) = false := by
    rw [hbefore]
    rfl
  obtain ⟨hpending, hvalue⟩ := Item.setAll_of_not_assigned
    ((copyBefore tag).set (copyBefore tag).stateColumn (.string Item.activeState)) hstate
  have hcolumn : (copyBefore tag).stateColumn = tag.content.kind.stateColumn := rfl
  have horiginal : (copyBefore tag).original tag.content.kind.stateColumn =
      .string Item.deletedState := by
    rw [Item.original_of_not_pending rfl, hbefore]
  rw [copyWanted, if_pos hdeleted, hpending, hvalue, hcolumn]
  constructor
  · rw [Item.pending_set, if_pos ⟨rfl, hchanged⟩, horiginal]
    rfl
  · rw [Item.value_set, if_pos ⟨rfl, hchanged⟩]

/-! ## The sync of a copy -/

end Command

/-- A tag is that of the copy that a subscription has of blueprint content of the template that it
follows. -/
structure Store.CopyOf (b : Rulebook) (s : Store) (id : Uuid) (t : Template) (master : ContentKey)
    (tag : ChildTag) : Prop where
  held : s.stored.childTag? tag.content = .ok (some tag)
  subscription : tag.subscriptionId = id
  follows : s.Follows id t
  migrationId : tag.migrationId = some (t.migrationId b.settings.marker master)

theorem Store.Follows.congr {s s' : Store} {id : Uuid} {t : Template} (h : s.Follows id t)
    (htemplates : s'.seen.templates = s.seen.templates)
    (hsubscriptions : s'.seen.subscriptions = s.seen.subscriptions) : s'.Follows id t := by
  obtain ⟨subscriptions, templates, sub, hseen, hsub, hseen', ht⟩ := h
  exact ⟨subscriptions, templates, sub, hsubscriptions.trans hseen, hsub, htemplates.trans hseen', ht⟩

namespace Command

variable {b : Rulebook} {s s' s₁ : Store} {id : Uuid} {master : ContentKey}
  {assignments : List Assignment} {t : Template} {tag : ChildTag} {report : Report} {d : Desk}

section Copy

variable (hs : s.Orderly b) (htidy : s.stored.Tidy b) (hcopy : s.CopyOf b id t master tag)
include hs htidy hcopy

/-- A sync of the content finds the copy first. -/
theorem SyncBegun.find?_copy {sub : Subscription} {t' : Template} {masterTag : MasterTag}
    {tags : List ChildTag} {m : Migration}
    (h : SyncBegun b s id master sub t' masterTag tags m s₁) :
    (tags.find? fun tag => tag.migrationId = some (t'.migrationId b.settings.marker master)) =
      some tag := by
  have hsyncing := h.syncing hs.ready hs.keyed
  obtain rfl := hsyncing.follows.unique hcopy.follows
  obtain ⟨rows, hrows, -, hmem⟩ := hsyncing.contents
  have hheld := hcopy.held
  rw [Store.childTag?_of_rows hrows] at hheld
  have hrow : tag ∈ rows := List.mem_of_find?_eq_some (Except.ok.inj hheld)
  have hlisted : tag ∈ tags :=
    (hmem tag).2 ⟨hrow, hcopy.subscription.trans hsyncing.subscription.symm⟩
  obtain ⟨found, hfind⟩ : ∃ found, (tags.find? fun tag =>
      tag.migrationId = some (t'.migrationId b.settings.marker master)) = some found :=
    Option.isSome_iff_exists.1
      (List.find?_isSome.2 ⟨tag, hlisted, decide_eq_true hcopy.migrationId⟩)
  -- the subscription has no other copy of the content
  obtain ⟨hfound, hours⟩ := (hmem found).1 (List.mem_of_find?_eq_some hfind)
  have hid : found.migrationId = some (t'.migrationId b.settings.marker master) := by
    simpa using List.find?_some hfind
  have hsame : found = tag := Tables.eq_of_nodup_map (htidy.copies rows hrows) hfound hrow
    (Prod.ext (hours.trans (hsyncing.subscription.trans hcopy.subscription.symm))
      (hid.trans hcopy.migrationId.symm))
  rw [hfind, hsame]

/-- A sync of the content that is answered has written the copy. -/
theorem rewrites_of_copy (h : (sync b id master assignments).run s = (.ok report, s')) :
    ∃ d, Rewrites b s id master assignments report tag d ∧ s' = d.store := by
  have hsaved : report.save ≠ none := by
    generalize hr : (Except.ok report : Result Report) = r at h
    cases sync_ends h with
    | stopped => cases hr
    | untracked => cases hr
    | unread => cases hr
    | copied hbegun hnone =>
      rw [hbegun.find?_copy hs htidy hcopy] at hnone
      cases hnone
    | @resynced sub t masterTag tags m s₁ _ existing saved hbegun hexisting hsaved =>
      cases saved with
      | error e => cases hr
      | ok done =>
        obtain ⟨found, -, rfl⟩ := map_eq_ok.1 hr.symm
        simp
  obtain ⟨existing, d, -, hrewrites, -⟩ := rewrites_of_sync h hsaved
  obtain ⟨sub, t', masterTag, tags, m, s₁, done, hbegun, hexisting, -⟩ := hrewrites.imported
  rw [hbegun.find?_copy hs htidy hcopy] at hexisting
  obtain rfl := Option.some.inj hexisting
  exact ⟨d, hrewrites, hrewrites.store_eq h⟩

end Copy

/-- What a sync makes of the copy that it writes, by the locks that are held for the content. -/
theorem Rewrites.rewritten {held : String → Restrictions}
    (h : Rewrites b s id master assignments report tag d) (hs : s.Orderly b)
    (hcopy : s.CopyOf b id t master tag) (hlocks : s.stored.locks = .ok held) :
    ∃ s₁, s₁.stored.templates = s.stored.templates ∧
      s₁.stored.subscriptions = s.stored.subscriptions ∧
      Rewritten b (held (t.migrationId b.settings.marker master)) tag assignments s₁ d := by
  obtain ⟨sub, t', masterTag, tags, m, s₁, done, hbegun, -, hsave, -⟩ := h.imported
  have hsyncing := hbegun.syncing hs.ready hs.keyed
  obtain rfl := hsyncing.follows.unique hcopy.follows
  obtain ⟨rows, hrows, hknown⟩ := hsyncing.locks
  rw [Stored.locks_of_rows hrows] at hlocks
  obtain rfl := Except.ok.inj hlocks
  have hheld : s₁.stored.childTag? tag.content = .ok (some tag) := by
    rw [hsyncing.childTag?, hcopy.held]
  have hrewritten := rewritten_of_import hsyncing.ready.clock hcopy.migrationId
    (b.settings.marks_migrationId t' master) hheld hsave
  rw [hknown] at hrewritten
  obtain ⟨-, -, -, htemplates, hsubscriptions, -⟩ := (tracked hs.ready hbegun.tracked).of_ok
  exact ⟨s₁, htemplates, hsubscriptions, hrewritten⟩

/-- A copy that a sync has written is still that copy, with what is left of its changes. -/
theorem Rewrites.copyOf {held : String → Restrictions}
    (h : Rewrites b s id master assignments report tag d) (hs : s.Orderly b)
    (hcopy : s.CopyOf b id t master tag) (hlocks : s.stored.locks = .ok held) :
    ∃ time, d.store.CopyOf b id t master (tag.withChanges (tag.changes \
      (syncPlan b (held (t.migrationId b.settings.marker master)) tag assignments).forget) time) := by
  obtain ⟨s₁, htemplates, hsubscriptions, hrewritten⟩ := h.rewritten hs hcopy hlocks
  obtain ⟨time, hheld⟩ := hrewritten.held
  obtain ⟨rows, _, -, -, hstored⟩ := hrewritten.rows
  have hshown : d.store.seen = d.store.stored := Store.seen_of_isOpen hrewritten.isOpen
  refine ⟨time, hheld, hcopy.subscription, hcopy.follows.congr ?_ ?_, hcopy.migrationId⟩
  · rw [hshown, hs.ready.shown, hstored, ← htemplates]
    rfl
  · rw [hshown, hs.ready.shown, hstored, ← hsubscriptions]
    rfl

/-! ## Previews -/

/-- What a preview looks up of a copy: the categories without a lock of their own that have recorded
changes, and, of a copy that was deleted, whether anything is restricted. -/
theorem run_foreseen {m : Migration} (hcopy : b.isCopy d.item = true)
    (hseen : d.store.seen.childTag? d.item.key = .ok (some tag)) :
    ∃ kept d', d'.store = d.store ∧ (do
        let kept ← b.keptCategories (.importing m)
        let restricted ← if tag.isManuallyDeleted then b.isRestricted (.importing m) .any
          else pure false
        return (kept, restricted)).run d =
      (.ok (kept, tag.isManuallyDeleted && (d.item.locksIn m).restrict (b.schemaOf d.item) .any),
        d') ∧
      ∀ g, g ∈ kept ↔ (d.item.locksIn m).isLocked g = false ∧ tag.Records (b.schemaOf d.item) g := by
  obtain ⟨kept, d₁, hkept⟩ := Rulebook.run_keptCategories_of_seen (c := .importing m) rfl hcopy hseen
  obtain ⟨hd, hmem⟩ := Rulebook.of_keptCategories (c := .importing m) rfl hcopy hkept
  -- looking for the categories may have kept the locks with the item, which changes nothing else
  obtain ⟨hstore, hcopy₁, hlocks, hschema⟩ : d₁.store = d.store ∧ b.isCopy d₁.item = true ∧
      d₁.item.locksIn m = d.item.locksIn m ∧ b.schemaOf d₁.item = b.schemaOf d.item := by
    rcases hd with rfl | rfl
    · exact ⟨rfl, hcopy, rfl, rfl⟩
    · exact ⟨rfl, hcopy, rfl, rfl⟩
  have hrestricted := Rulebook.run_isRestricted (c := .importing m) hcopy₁
    (Rulebook.run_restrictionsInForce_import rfl) .any
  rw [hlocks, hschema] at hrestricted
  have hforeseen : ∀ g, g ∈ kept ↔
      (d.item.locksIn m).isLocked g = false ∧ tag.Records (b.schemaOf d.item) g := by
    intro g
    rw [hmem, hseen]
    simp
  cases tag.isManuallyDeleted with
  | false =>
    refine ⟨kept, d₁, hstore, ?_, hforeseen⟩
    rw [Action.run_bind_ok hkept]
    rfl
  | true =>
    refine ⟨kept, d₁.withLocks (d.item.locksIn m), hstore, ?_, hforeseen⟩
    rw [Action.run_bind_ok hkept]
    exact Action.run_bind_ok hrestricted

/-- What a preview answers of a copy, by the locks that are held for the content. It changes nothing. -/
theorem run_preview {held : String → Restrictions} (hs : s.Orderly b)
    (hcopy : s.CopyOf b id t master tag) (hlocks : s.stored.locks = .ok held) :
    ∃ kept, (preview b tag.content).run s = (.ok
        { kept := some kept, childTags := [tag],
          messages := (if tag.isManuallyDeleted then [deletionMessage tag.content
              ((held (t.migrationId b.settings.marker master)).restrict
                (b.registry tag.content.kind) .any)] else []) ++
            keptMessages tag.content kept tag.isManuallyDeleted }, s) ∧
      ∀ g, g ∈ kept ↔
        (held (t.migrationId b.settings.marker master)).isLocked g = false ∧
          tag.Records (b.registry tag.content.kind) g := by
  obtain ⟨subscriptions, templates, sub, hsubscriptions, hsub, -, ht⟩ := hcopy.follows
  have hfollows : t.id = sub.templateId := by simpa using List.find?_some ht
  have hopen : s.isOpen = true := hs.ready.isOpen_of_held hcopy.held
  have htag : (copyTag tag.content).run s = (.ok tag, s) := of_copyTag hopen hcopy.held
  have hfound : (subscription tag.subscriptionId).run s = (.ok sub, s) := by
    rw [run_subscription, hsubscriptions, hcopy.subscription, Except.map, hsub]
    rfl
  obtain ⟨m, hload⟩ : ∃ m, (Migration.load sub).run s = (.ok m, s) := by
    obtain ⟨ts, hstored, -⟩ := hs.keyed
    rw [run_load, hs.ready.shown, hstored]
    exact ⟨_, rfl⟩
  obtain ⟨rows, hrows, hknown⟩ := find?_of_load hs.ready.shown hs.keyed hload hfollows master
  rw [Stored.locks_of_rows hrows] at hlocks
  obtain rfl := Except.ok.inj hlocks
  have hcopied : b.isCopy (copyItem tag ∅) = true := by
    rw [Rulebook.isCopy]
    simp [copyItem, hcopy.migrationId, b.settings.marks_migrationId]
  have hlocksIn : (copyItem tag ∅).locksIn m =
      MasterTag.locksUnder rows (t.migrationId b.settings.marker master) := by
    rw [← hknown, Item.locksIn]
    simp [copyItem, Item.persisted, hcopy.migrationId]
  obtain ⟨kept, d, hstore, hforeseen, hkept⟩ := run_foreseen (m := m)
    (d := ⟨s, copyItem tag ∅, [], []⟩) hcopied (by rw [hs.ready.shown]; exact hcopy.held)
  rw [hlocksIn] at hforeseen hkept
  refine ⟨kept, ?_, hkept⟩
  have hexamined := Action.run_bind_ok (f := fun done => pure done.1)
    (Work.run_on_eq_ok.2 ⟨hforeseen, hstore.symm⟩)
  rw [preview, Action.run_bind_ok htag, Action.run_bind_ok hfound, Action.run_bind_ok hload]
  refine (Action.run_bind_ok hexamined).trans ?_
  cases tag.isManuallyDeleted with
  | true => rfl
  | false => rfl

end Command

/-! ## The copy of a page -/

namespace Sample

/-- The subscription by which the copy was made. -/
def madeSubscription : Subscription := ⟨supply.ids 1, supply.ids 0, ⟨4⟩⟩

/-- The child tag of the copy is that of the page, in a store that shows the template, the subscription
and the tag. -/
theorem copyOf_page {b : Rulebook} {s : Store} {changes : List String}
    (hmarker : b.settings.marker = rulebook.settings.marker)
    (hrows : s.seen.templates.toOption = some [madeTemplate] ∧
      s.seen.subscriptions.toOption = some [madeSubscription] ∧
      (s.stored.childTag? (copyTag []).content).toOption = some (some (copyTag changes))) :
    s.CopyOf b (supply.ids 1) madeTemplate page (copyTag changes) := by
  obtain ⟨htemplates, hsubscriptions, hheld⟩ := hrows
  refine ⟨Result.toOption_eq_some.1 hheld, rfl, ?_, ?_⟩
  · exact ⟨_, _, madeSubscription, Result.toOption_eq_some.1 hsubscriptions, by decide,
      Result.toOption_eq_some.1 htemplates, by decide⟩
  · rw [hmarker]
    rfl

end Sample

end CourseBlueprint
