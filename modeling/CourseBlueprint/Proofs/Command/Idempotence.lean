import CourseBlueprint.Proofs.Command.Rewriting

/-!
# Syncing twice

A sync that is answered leaves nothing for the same sync to do: it finds the copy again, and the import
of the copy forgets none of its changes (`Command.settled_of_sync`). So the same sync, run again, is
answered with the same copy and changes no row (`sync_idempotent`).
-/

namespace CourseBlueprint

open Reconciliation (Plan)

/-! ## Rows that keep their places -/

namespace Tables

/-- Of rows for different content, the one that is replaced is the one with its content. -/
theorem replaceFirst_withChanges {rows : List ChildTag} {tag : ChildTag}
    (hdistinct : (rows.map ChildTag.content).Nodup)
    (htag : childTagIn rows tag.content = some tag) (changes : NameSet) (time : Timestamp) :
    replaceFirst (fun t => t.content = tag.content) (tag.withChanges changes time) rows =
      rows.map fun t => if t.content = tag.content then t.withChanges changes time else t := by
  induction rows with
  | nil => rfl
  | cons row rows ih =>
    rw [List.map_cons, List.nodup_cons] at hdistinct
    unfold replaceFirst
    by_cases hrow : row.content = tag.content
    · have hsame : row = tag := by
        rw [childTagIn, List.find?_cons_of_pos (by simpa using hrow)] at htag
        exact Option.some.inj htag
      have hrest : rows.map (fun t =>
          if t.content = tag.content then t.withChanges changes time else t) = rows := by
        refine (List.map_congr_left fun t ht => if_neg fun heq => ?_).trans (List.map_id rows)
        exact hdistinct.1 (hrow.trans heq.symm ▸ List.mem_map_of_mem ht)
      rw [if_pos (decide_eq_true hrow), List.map_cons, if_pos hrow, hrest, hsame]
    · rw [childTagIn, List.find?_cons_of_neg (by simpa using hrow)] at htag
      rw [if_neg (by simpa using hrow), List.map_cons, if_neg hrow, ih hdistinct.2 htag]

/-- The child tags of a subscription, in the order in which they are listed. -/
def childTagsOf (rows : List ChildTag) (subscription : Uuid) : List ChildTag :=
  (rows.filter fun t => t.subscriptionId = subscription).mergeSort fun t u => t.content.le u.content

theorem mem_childTagsOf {rows : List ChildTag} {subscription : Uuid} {tag : ChildTag} :
    tag ∈ childTagsOf rows subscription ↔ tag ∈ rows ∧ tag.subscriptionId = subscription := by
  rw [childTagsOf, List.mem_mergeSort, List.mem_filter, decide_eq_true_eq]

/-- Tags of which some got other changes are listed in the same order. -/
theorem childTagsOf_map {rows : List ChildTag} {f : ChildTag → ChildTag} (subscription : Uuid)
    (hcontent : ∀ t, (f t).content = t.content)
    (hsubscription : ∀ t, (f t).subscriptionId = t.subscriptionId) :
    childTagsOf (rows.map f) subscription = (childTagsOf rows subscription).map f := by
  unfold childTagsOf
  rw [List.filter_map, List.map_mergeSort]
  · refine congrArg (fun ts => (List.map f ts).mergeSort _) (List.filter_congr fun t _ => ?_)
    simp [hsubscription]
  · intro t _ u _
    rw [hcontent, hcontent]

/-- So of those under a migration identifier the same one is found first. -/
theorem find?_childTagsOf_map {rows : List ChildTag} {f : ChildTag → ChildTag} (subscription : Uuid)
    (hcontent : ∀ t, (f t).content = t.content)
    (hsubscription : ∀ t, (f t).subscriptionId = t.subscriptionId)
    (hid : ∀ t, (f t).migrationId = t.migrationId) (key : Option String) :
    ((childTagsOf (rows.map f) subscription).find? fun t => t.migrationId = key) =
      ((childTagsOf rows subscription).find? fun t => t.migrationId = key).map f := by
  have hsame : ((fun t : ChildTag => decide (t.migrationId = key)) ∘ f) =
      fun t => decide (t.migrationId = key) := by
    funext t
    simp [hid]
  rw [childTagsOf_map subscription hcontent hsubscription, List.find?_map, hsame]

end Tables

theorem ChildTag.content_withChanges (tag : ChildTag) (changes : NameSet) (time : Timestamp) :
    (tag.withChanges changes time).content = tag.content := rfl

/-- A tag that is held for content is found for it, and nothing is drawn for that. -/
theorem Store.run_findOrCreateChildTag_of_held {s : Store} {content : ContentKey} {tag : ChildTag}
    (hopen : s.isOpen = true) (htag : s.stored.childTag? content = .ok (some tag))
    (subscription : Uuid) (migrationId : Option String) :
    (findOrCreateChildTag subscription content migrationId).run s = (.ok tag, s) := by
  rw [findOrCreateChildTag, Action.run_bind, run_childTag?, seen_of_isOpen hopen, htag]
  rfl

/-! ## Imports that forget nothing -/

namespace Rulebook

variable {b : Rulebook} {c : Context} {m : Migration} {d : Desk} {tag : ChildTag}

section Keeping

variable (hc : c.migration = some m) (hcopy : b.isCopy d.item = true)
  (hopen : d.store.isOpen = true) (htag : d.store.stored.childTag? d.item.key = .ok (some tag))
  (hkeeps : (b.planIn m tag d.item).forget.isEmpty = true)
include hc hcopy hopen htag hkeeps

/-- A reconciliation that has nothing to forget leaves the store as it is. -/
theorem run_reconcile_of_keeps : ∃ reconciliation d',
    (b.reconcile c).run d = (.ok reconciliation, d') ∧ d'.store = d.store := by
  rw [run_reconcile hc hcopy, Store.run_findOrCreateChildTag_of_held hopen htag]
  simp only
  split
  · exact ⟨.noOverlap, d, rfl, rfl⟩
  · rw [run_forget_of_isEmpty hkeeps]
    exact ⟨_, _, rfl, (Reconciled.takenBack_frame _ _ _).1⟩

/-- So does the import. -/
theorem run_save_of_keeps (hnew : d.item.isNew = false) : ∃ report d',
    (b.save c .noop).run d = (.ok (.saved report), d') ∧ d'.store = d.store := by
  obtain ⟨reconciliation, d₁, hreconcile, hstore⟩ :=
    run_reconcile_of_keeps hc hcopy hopen htag hkeeps
  refine ⟨⟨.unrestricted, reconciliation, none⟩, d₁.handOver.applied, ?_, hstore⟩
  rw [run_save_import hc hnew, hreconcile]
  rfl

end Keeping

end Rulebook

namespace Command

variable {b : Rulebook} {s s' s₁ : Store} {id : Uuid} {master : ContentKey}
  {assignments : List Assignment} {sub : Subscription} {t : Template} {masterTag : MasterTag}
  {tags : List ChildTag} {m : Migration} {tag : ChildTag}

/-! ## Syncs that have nothing to do -/

/-- A sync has a copy to write and no row to change: it finds the tag of the copy, and the import of the
copy forgets none of its changes. -/
structure Settled (b : Rulebook) (s : Store) (id : Uuid) (master : ContentKey)
    (assignments : List Assignment) (tag : ChildTag) : Prop where
  isOpen : s.isOpen = true
  held : s.stored.childTag? tag.content = .ok (some tag)
  begun : ∃ sub t masterTag tags m s₁, SyncBegun b s id master sub t masterTag tags m s₁ ∧
    s.Alike s₁ ∧
    (tags.find? fun tag => tag.migrationId = some (t.migrationId b.settings.marker master)) =
      some tag ∧
    (b.planIn m tag (copyWanted tag assignments)).forget.isEmpty = true

/-- Such a sync is answered with the copy and changes no row. -/
theorem Settled.run_sync (h : Settled b s id master assignments tag) : ∃ report s',
    (sync b id master assignments).run s = (.ok report, s') ∧ report.childTags = [tag] ∧
      s.Alike s' := by
  obtain ⟨sub, t, masterTag, tags, m, s₁, hbegun, halike, hfind, hkeeps⟩ := h.begun
  have hid : tag.migrationId = some (t.migrationId b.settings.marker master) := by
    simpa using List.find?_some hfind
  have hopen : s₁.isOpen = true := by rw [halike.isOpen, h.isOpen]
  have hheld : s₁.stored.childTag? tag.content = .ok (some tag) := by rw [halike.stored, h.held]
  obtain ⟨done, d, hsave, hstore⟩ := Rulebook.run_save_of_keeps
    (d := ⟨s₁, copyWanted tag assignments, [], []⟩) (c := .importing m) rfl
    (isCopy_copyWanted assignments hid (b.settings.marks_migrationId t master)) hopen
    (by rw [key_copyWanted]; exact hheld) hkeeps (isNew_copyWanted tag assignments)
  have himport : (saveImported b m (copyWanted tag assignments)).run s₁ =
      (.ok (done, d.item), d.store) := by
    rw [saveImported, Action.run_bind_ok (Work.run_on_eq_ok.2 ⟨hsave, rfl⟩)]
    rfl
  have hseen : d.store.seen.childTag? tag.content = .ok (some tag) := by
    rw [hstore, Store.seen_of_isOpen hopen, hheld]
  have hanswer := hbegun.run_resync hfind himport
  rw [hseen] at hanswer
  exact ⟨_, d.store, hanswer, rfl, hstore ▸ halike⟩

/-! ## The same sync again -/

/-- Once content is tracked, its master tag is the first that is held under the identifier. -/
theorem Tracked.find?_eq {content : ContentKey} (h : Tracked b s t content (.ok masterTag) s') :
    ∃ rows, s'.stored.masterTags = .ok rows ∧
      (rows.find? fun row => row.migrationId = t.migrationId b.settings.marker content) =
        some masterTag := by
  cases h with
  | found halike hopen hrows htag => exact ⟨_, by rw [halike.stored, hrows], htag⟩
  | @made rows _ _ hlater hopen hrows hnew htemplate hcontent hid hrestrictions hstored =>
    refine ⟨_, by rw [hstored], ?_⟩
    have hnone : (rows.find? fun row =>
        row.migrationId = t.migrationId b.settings.marker content) = none :=
      List.find?_eq_none.2 fun row hrow heq => hnew row hrow (of_decide_eq_true heq)
    rw [List.find?_append, hnone]
    simp [hid]

/-- Tracking content again finds its master tag. -/
theorem Tracked.again {content : ContentKey} (h : Tracked b s t content (.ok masterTag) s₁)
    (hopen : s'.isOpen = true) (hsame : s'.stored.masterTags = s₁.stored.masterTags) :
    ∃ s'', s'.Alike s'' ∧ (trackedMasterTag b t content).run s' = (.ok masterTag, s'') := by
  obtain ⟨rows, hrows, hfind⟩ := h.find?_eq
  obtain ⟨s'', halike, hlook⟩ := Store.run_masterTag? (t.migrationId b.settings.marker content) s'
  rw [Store.seen_of_isOpen hopen, hsame, hrows] at hlook
  refine ⟨s'', halike, ?_⟩
  rw [trackedMasterTag, Action.run_bind_ok (hlook.trans (by rw [Except.map, hfind]))]
  rfl

section Begun

variable (h : SyncBegun b s id master sub t masterTag tags m s₁)
include h

/-- A sync begins only where the tables are there. -/
theorem SyncBegun.ready (hclock : s.supply.ShowsDates) : s.Ready :=
  ready_of_subscription hclock h.subscription

/-- Where nothing but child tags has changed since, the same sync begins the same way. -/
theorem SyncBegun.again {rows : List ChildTag} (hclock : s.supply.ShowsDates)
    (hopen : s'.isOpen = true) (hstored : s'.stored = s₁.stored.withChildTags rows) :
    ∃ s'', SyncBegun b s' id master sub t masterTag (Tables.childTagsOf rows sub.id) m s'' ∧
      s'.Alike s'' := by
  have hready : s.Ready := h.ready hclock
  have htracking := Command.tracked hready h.tracked
  obtain ⟨hopen₁, -, -, htemplates, hsubscriptions, -⟩ := htracking.of_ok
  obtain ⟨s'', halike, htracked⟩ := htracking.again hopen (by rw [hstored]; rfl)
  have hseen : s'.seen = s₁.stored.withChildTags rows := by
    rw [Store.seen_of_isOpen hopen, hstored]
  refine ⟨s'', ⟨h.kind, ?_, ?_, htracked, ?_, ?_⟩, halike⟩
  · have hsub := h.subscription
    rw [run_subscription, hready.shown, ← hsubscriptions] at hsub
    rw [run_subscription, hseen]
    exact Prod.ext (Prod.mk.inj hsub).1 rfl
  · have ht := h.template
    rw [run_template, hready.shown, ← htemplates] at ht
    rw [run_template, hseen]
    exact Prod.ext (Prod.mk.inj ht).1 rfl
  · rw [run_childTagsOf, halike.seen, hseen]
    rfl
  · have hload := h.load
    rw [run_load, Store.seen_of_isOpen hopen₁] at hload
    rw [run_load, halike.seen, hseen]
    exact Prod.ext (Prod.mk.inj hload).1 rfl

/-- What a sync lists are the child tags of its subscription in the rows that are held. -/
theorem SyncBegun.childTagsOf (hclock : s.supply.ShowsDates) : ∃ rows,
    s.stored.childTags = .ok rows ∧ s₁.stored.childTags = .ok rows ∧
      tags = Tables.childTagsOf rows sub.id := by
  obtain ⟨hopen₁, -, -, -, -, hsame⟩ := (Command.tracked (h.ready hclock) h.tracked).of_ok
  have htags := h.tags
  rw [run_childTagsOf, Store.seen_of_isOpen hopen₁] at htags
  obtain ⟨rows, hrows, hlisted⟩ := map_eq_ok.1 (Prod.mk.inj htags).1
  exact ⟨rows, hsame ▸ hrows, hrows, hlisted.symm⟩

end Begun

/-! ## What a sync leaves to do -/

/-- What is wanted of a copy depends on its recorded changes by the mark of a deletion only. -/
theorem copyWanted_withChanges {changes : NameSet} {time : Timestamp}
    (h : manuallyDeleted ∈ changes ↔ manuallyDeleted ∈ tag.changes) (assignments : List Assignment) :
    copyWanted (tag.withChanges changes time) assignments = copyWanted tag assignments := by
  have hdeleted : (tag.withChanges changes time).isManuallyDeleted = tag.isManuallyDeleted :=
    decide_eq_decide.2 h
  unfold copyWanted copyBefore
  rw [hdeleted]
  rfl

/-- Once what a sync forgets is taken from the recorded changes of a copy, the sync forgets nothing. -/
theorem syncPlan_forgets_nothing (r : Restrictions) (tag : ChildTag) (assignments : List Assignment)
    (time : Timestamp) : (syncPlan b r
      (tag.withChanges (tag.changes \ (syncPlan b r tag assignments).forget) time)
      assignments).forget.isEmpty = true := by
  generalize hchanges : tag.changes \ (syncPlan b r tag assignments).forget = changes
  have hleft : ∀ {x}, x ∈ changes → x ∈ tag.changes ∧ ¬ x ∈ (syncPlan b r tag assignments).forget := by
    intro x hx
    rw [← hchanges] at hx
    exact NameSet.mem_diff.1 hx
  refine NameSet.isEmpty_iff.2 fun x hx => ?_
  rcases mem_forget_syncPlan.1 hx with ⟨hchange, hlocked⟩ | ⟨-, hback, hany⟩
  · obtain ⟨hbefore, hnot⟩ := hleft hchange
    exact hnot (mem_forget_syncPlan.2 (.inl ⟨hbefore, hlocked⟩))
  · -- a mark that was left is one that the first sync could not take away either
    rw [Plan.bringsBack, Bool.and_eq_true] at hback
    have hmark : manuallyDeleted ∈ changes := of_decide_eq_true hback.2
    obtain ⟨hbefore, hnot⟩ := hleft hmark
    rw [copyWanted_withChanges ⟨fun _ => hbefore, fun _ => hmark⟩] at hback
    refine hnot (mem_forget_syncPlan.2 (.inr ⟨rfl, ?_, hany⟩))
    rw [Plan.bringsBack, hback.1, Bool.true_and]
    exact decide_eq_true hbefore

section Begun

variable (h : SyncBegun b s id master sub t masterTag tags m s₁) (hclock : s.supply.ShowsDates)
include h hclock

/-- Where a sync has set the changes of the copy that it found, the same sync finds the copy again. -/
theorem SyncBegun.settled_of_setsChanges {changes : NameSet}
    (hdistinct : ∀ rows, s.stored.childTags = .ok rows → (rows.map ChildTag.content).Nodup)
    (hfind : (tags.find? fun tag =>
      tag.migrationId = some (t.migrationId b.settings.marker master)) = some tag)
    (hopen : s'.isOpen = true) (hset : s₁.stored.SetsChanges tag changes s'.stored)
    (hkeeps : ∀ time, (b.planIn m (tag.withChanges changes time)
      (copyWanted (tag.withChanges changes time) assignments)).forget.isEmpty = true) :
    ∃ time, Settled b s' id master assignments (tag.withChanges changes time) := by
  obtain ⟨rows, hrows, hrows₁, rfl⟩ := h.childTagsOf hclock
  obtain ⟨rows', time, hrows', hfound, hstored⟩ := hset
  rw [hrows₁] at hrows'
  obtain rfl := Except.ok.inj hrows'
  have hheld : s'.stored.childTag? (tag.withChanges changes time).content =
      .ok (some (tag.withChanges changes time)) := by
    rw [hstored, Store.childTag?_withChildTags, ChildTag.content_withChanges,
      Store.childTagIn_withChanges hfound, if_pos rfl]
  -- the tags are listed in the same order, since they stand for the same content
  rw [Tables.replaceFirst_withChanges (hdistinct rows hrows) hfound] at hstored
  obtain ⟨s'', hbegun, halike⟩ := h.again hclock hopen hstored
  refine ⟨time, hopen, hheld, sub, t, masterTag, _, m, s'', hbegun, halike, ?_, hkeeps time⟩
  rw [Tables.find?_childTagsOf_map sub.id (fun _ => by split <;> rfl) (fun _ => by split <;> rfl)
    (fun _ => by split <;> rfl), hfind, Option.map_some, if_pos rfl]

/-- The import of a copy leaves nothing for the same sync to do. -/
theorem SyncBegun.settled_of_resynced {done : SaveReport × Item}
    (hdistinct : ∀ rows, s.stored.childTags = .ok rows → (rows.map ChildTag.content).Nodup)
    (hfind : (tags.find? fun tag =>
      tag.migrationId = some (t.migrationId b.settings.marker master)) = some tag)
    (hsaved : (saveImported b m (copyWanted tag assignments)).run s₁ = (.ok done, s')) :
    ∃ changes time, Settled b s' id master assignments (tag.withChanges changes time) := by
  have hid : tag.migrationId = some (t.migrationId b.settings.marker master) := by
    simpa using List.find?_some hfind
  have hheld : s₁.stored.childTag? tag.content = .ok (some tag) := by
    obtain ⟨rows, hrows, hrows₁, rfl⟩ := h.childTagsOf hclock
    obtain ⟨hmem, -⟩ := Tables.mem_childTagsOf.1 (List.mem_of_find?_eq_some hfind)
    rw [Store.childTag?_of_rows hrows₁, Tables.childTagIn,
      (Tables.find?_eq_some_iff (hdistinct rows hrows)).2 ⟨hmem, rfl⟩]
  have hclock₁ : s₁.supply.ShowsDates :=
    ((evolves_trackedMasterTag hclock _ _).of_run h.tracked (.refl s)).supply.showsDates hclock
  obtain ⟨d, hsave, rfl⟩ := of_saveImported hsaved
  have hrewritten := rewritten_of_import hclock₁ hid (b.settings.marks_migrationId t master) hheld hsave
  refine ⟨_, h.settled_of_setsChanges hclock hdistinct hfind hrewritten.isOpen hrewritten.rows
    fun time => ?_⟩
  rw [planIn_copyWanted (by exact hid)]
  exact syncPlan_forgets_nothing _ tag assignments time

/-- A copy that is made leaves nothing for the same sync to do. -/
theorem SyncBegun.settled_of_copied
    (hfresh : ∀ rows, s.stored.childTags = .ok rows →
      ∀ row ∈ rows, ¬ s.supply.Drew s'.supply row.content.id)
    (hnone : (tags.find? fun tag =>
      tag.migrationId = some (t.migrationId b.settings.marker master)) = none)
    (hmade : (createCopy b m master.kind (t.migrationId b.settings.marker master) assignments).run
      s₁ = (.ok tag, s')) : Settled b s' id master assignments tag := by
  obtain ⟨rows, hrows, hrows₁, rfl⟩ := h.childTagsOf hclock
  have hlater₁ : s.supply.Later s₁.supply :=
    ((evolves_trackedMasterTag hclock _ _).of_run h.tracked (.refl s)).supply
  have hfound := foundOrCreated_of_createCopy (hlater₁.showsDates hclock)
    (b.settings.marks_migrationId t master) hmade
  obtain ⟨hopen, hheld⟩ := hfound.held
  have hkey := Store.content_of_childTag? hheld
  rcases hfound.ends with ⟨e, he, -⟩ | ⟨made, hr, -, -, hstored | ⟨rows', hrows', -, hours, -, hid,
    hchanges, hstored⟩⟩
  · cases he
  · -- the identifier that was drawn for the copy is not one of those that are held
    rw [hstored, Store.stored_afterId, Store.childTag?_of_rows hrows₁] at hheld
    refine absurd ?_ (hfresh rows hrows tag (List.mem_of_find?_eq_some (Except.ok.inj hheld)))
    refine ⟨s₁.supply.idsUsed, hlater₁.idsUsed, hfound.supply.idsUsed, ?_⟩
    rw [hkey, hlater₁.ids]
  · obtain rfl := Except.ok.inj hr
    rw [Store.stored_afterId, hrows₁] at hrows'
    obtain rfl := Except.ok.inj hrows'
    obtain ⟨s'', hbegun, halike⟩ := h.again hclock hopen hstored
    refine ⟨hopen, by rw [hkey, hheld], sub, t, masterTag, _, m, s'', hbegun, halike, ?_, ?_⟩
    · -- the copy that was made is the only one of the content
      have hlisted : tag ∈ Tables.childTagsOf (rows ++ [tag]) sub.id :=
        Tables.mem_childTagsOf.2 ⟨by simp, hours.trans (by rw [(of_load h.load).2])⟩
      obtain ⟨found, hfind⟩ : ∃ found, ((Tables.childTagsOf (rows ++ [tag]) sub.id).find? fun tag =>
          tag.migrationId = some (t.migrationId b.settings.marker master)) = some found :=
        Option.isSome_iff_exists.1 (List.find?_isSome.2 ⟨tag, hlisted, decide_eq_true hid⟩)
      obtain ⟨hmem, hsub⟩ := Tables.mem_childTagsOf.1 (List.mem_of_find?_eq_some hfind)
      rcases List.mem_append.1 hmem with hold | hnew
      · exact absurd (List.find?_some hfind)
          (List.find?_eq_none.1 hnone found (Tables.mem_childTagsOf.2 ⟨hold, hsub⟩))
      · rw [hfind, List.mem_singleton.1 hnew]
    · refine NameSet.isEmpty_iff.2 (Rulebook.Reconciled.planIn_of_clean ?_ _).1
      rw [hchanges]
      rfl

end Begun

/-- A sync that is answered leaves nothing for the same sync to do, if the identifiers that it draws are
new. -/
theorem settled_of_sync {report : Report} (hclock : s.supply.ShowsDates)
    (hdistinct : ∀ rows, s.stored.childTags = .ok rows → (rows.map ChildTag.content).Nodup)
    (hfresh : ∀ rows, s.stored.childTags = .ok rows →
      ∀ row ∈ rows, ¬ s.supply.Drew s'.supply row.content.id)
    (h : (sync b id master assignments).run s = (.ok report, s')) :
    ∃ tag, report.childTags = [tag] ∧ Settled b s' id master assignments tag := by
  generalize hr : (Except.ok report : Result Report) = r at h
  cases sync_ends h with
  | stopped => cases hr
  | untracked => cases hr
  | unread => cases hr
  | copied hbegun hnone hmade =>
    obtain ⟨tag, rfl, rfl⟩ := map_eq_ok.1 hr.symm
    exact ⟨tag, rfl, hbegun.settled_of_copied hclock hfresh hnone hmade⟩
  | @resynced sub t masterTag tags m s₁ _ existing saved hbegun hexisting hsaved =>
    cases saved with
    | error e => cases hr
    | ok done =>
      obtain ⟨tag, htag, rfl⟩ := map_eq_ok.1 hr.symm
      obtain ⟨changes, time, hsettled⟩ :=
        hbegun.settled_of_resynced hclock hdistinct hexisting hsaved
      -- the tag that the sync answers is the one that is held
      have hheld := bind_ofOption_eq_ok.1 htag
      rw [Store.seen_of_isOpen hsettled.isOpen,
        ← ChildTag.content_withChanges existing changes time, hsettled.held] at hheld
      exact ⟨_, by rw [Option.some.inj (Except.ok.inj hheld)], hsettled⟩

end Command

/-- A sync that is answered, with a copy that it made or wrote, is answered with the same copy if it is
requested again, and then no row changes in any way and nothing is drawn. Child tags must be of
different content, and the identifiers that the first sync draws must not be those of content that has
one. -/
theorem sync_idempotent (b : Rulebook) {s s' : Store} {id : Uuid} {master : ContentKey}
    {texts : List String} {report : Report} (hclock : s.supply.ShowsDates)
    (hdistinct : ∀ rows, s.stored.childTags = .ok rows → (rows.map ChildTag.content).Nodup)
    (hfresh : ∀ rows, s.stored.childTags = .ok rows →
      ∀ row ∈ rows, ¬ s.supply.Drew s'.supply row.content.id)
    (h : ((Request.sync id master texts).run b).run s = (.ok report, s')) :
    ∃ report' s'', ((Request.sync id master texts).run b).run s' = (.ok report', s'') ∧
      report'.childTags = report.childTags ∧ s'.Alike s'' := by
  obtain ⟨assignments, s₁, hread, hsync⟩ := Action.run_bind_eq_ok.1 h
  obtain ⟨htexts, rfl⟩ := Action.run_liftM_eq_ok.1 hread
  obtain ⟨tag, htag, hsettled⟩ := Command.settled_of_sync hclock hdistinct hfresh hsync
  obtain ⟨report', s'', hrun, htag', halike⟩ := hsettled.run_sync
  refine ⟨report', s'', ?_, htag'.trans htag.symm, halike⟩
  rw [Request.run, Action.run_bind_ok (Action.run_liftM_eq_ok.2 ⟨htexts, rfl⟩), hrun]

/-! ## A page that is synced twice -/

namespace Sample

/-- The sync that forgets the change of the body, as the content was locked, changes nothing when it is
run again. -/
theorem syncedAgain_twice :
    lockedAfterEdit.stored.childTag? (copyTag []).content = .ok (some (copyTag ["body"])) ∧
    ∃ report report' s'',
      ((Request.sync (supply.ids 1) page []).run rulebook).run lockedAfterEdit =
        (.ok report, syncedAgain) ∧ report.childTags = [copyTag []] ∧
      ((Request.sync (supply.ids 1) page []).run rulebook).run syncedAgain = (.ok report', s'') ∧
      report'.childTags = [copyTag []] ∧ s''.stored = syncedAgain.stored := by
  have hrows : lockedAfterEdit.stored.childTags = .ok [copyTag ["body"]] :=
    Result.toOption_eq_some.1 (by decide +kernel)
  have hdrawn : lockedAfterEdit.supply.idsUsed = syncedAgain.supply.idsUsed := by decide +kernel
  obtain ⟨report, hrun, htags⟩ : ∃ report,
      (((Request.sync (supply.ids 1) page []).run rulebook).run lockedAfterEdit).1 = .ok report ∧
        report.childTags = [copyTag []] := by
    have hsome : (((Request.sync (supply.ids 1) page []).run rulebook).run
        lockedAfterEdit).1.toOption.map Report.childTags = some [copyTag []] := by decide +kernel
    obtain ⟨report, hreport, htags⟩ := Option.map_eq_some_iff.1 hsome
    exact ⟨report, Result.toOption_eq_some.1 hreport, htags⟩
  have hsync : ((Request.sync (supply.ids 1) page []).run rulebook).run lockedAfterEdit =
      (.ok report, syncedAgain) := Prod.ext hrun rfl
  have horderly : lockedAfterEdit.Orderly rulebook :=
    orderly_runEvents (Store.orderly_of_empty showsDates_supply rfl) lockAfterEdit
  obtain ⟨report', s'', hagain, htags', halike⟩ := sync_idempotent rulebook horderly.ready.clock
    (fun rows h => by
      obtain rfl := Except.ok.inj (hrows.symm.trans h)
      exact List.nodup_cons.2 ⟨List.not_mem_nil, List.nodup_nil⟩)
    (fun rows h row hrow => by
      -- the sync that finds its copy draws nothing
      rintro ⟨i, hafter, hbefore, -⟩
      rw [hdrawn] at hafter
      exact absurd hafter (Nat.not_le.2 hbefore)) hsync
  exact ⟨childTag?_lockedAfterEdit, report, report', s'', hsync, htags, hagain, htags'.trans htags,
    halike.stored⟩

end Sample

end CourseBlueprint
