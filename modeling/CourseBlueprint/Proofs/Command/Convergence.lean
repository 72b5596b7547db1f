import CourseBlueprint.Proofs.Command.Rewriting
import CourseBlueprint.Proofs.Settings

/-!
# Copies of locked content

Once all categories of blueprint content are locked, the next sync that does not assign the state of a
copy of it leaves nothing recorded for the copy: the subscription no longer lists it as changed, and a
preview keeps no category of it (`lockedCopy_converges`).
-/

namespace CourseBlueprint

open Reconciliation (Plan)

namespace Command

variable {b : Rulebook} {s s' : Store} {id : Uuid} {master : ContentKey} {t : Template}
  {tag : ChildTag} {r : Restrictions} {assignments : List Assignment}

/-! ## Locking -/

/-- Turning locks on of content in the course of a template that is held leaves on those that were on,
and turns on those that are named. -/
theorem isOn_of_setLocks {locks : List Lock} {report : Report} (hs : s.Orderly b)
    (htidy : s.stored.Tidy b) (ht : s.stored.HasTemplate t)
    (h : (setLocks b t.courseId master locks true).run s = (.ok report, s')) :
    ∃ held, s'.stored.locks = .ok held ∧ ∀ l, l ∈ locks ∨ s.LockOn b t master l →
      (held (t.migrationId b.settings.marker master)).isOn l = true := by
  rcases locks_setLocks hs.ready h with ⟨⟨e, he⟩, -⟩ | ⟨t', held, ht', hcourse, hlocks, hset⟩
  · cases he
  have hsame : t' = t := by
    obtain ⟨rows, hrows, hmem⟩ := ht
    obtain ⟨rows', hrows', hmem'⟩ := ht'
    rw [hrows] at hrows'
    obtain rfl := Except.ok.inj hrows'
    exact Tables.eq_of_nodup_map (htidy.courses rows hrows) hmem' hmem hcourse
  subst hsame
  refine ⟨_, hset, fun l hl => ?_⟩
  rw [if_pos rfl, Restrictions.isOn_foldl_set]
  split
  · rfl
  · next hnamed => exact (Store.lockOn_iff hs.keyed hlocks).1 (hl.resolve_left hnamed)

/-- Setting locks leaves the copies. -/
theorem copyOf_of_setLocks {course : Uuid} {content : ContentKey} {locks : List Lock} {on : Bool}
    {result : Result Report} (hs : s.Ready) (hs' : s'.Ready) (hcopy : s.CopyOf b id t master tag)
    (h : (setLocks b course content locks on).run s = (result, s')) :
    s'.CopyOf b id t master tag := by
  have hsame : ∀ {β : Type} {g : Stored → β},
      (∀ rows st, g (Store.masterTagShelf.put rows st) = g st) → g s'.stored = g s.stored :=
    fun hother => (same_setLocks hs hother h).eq
  have hchildTags : s'.stored.childTags = s.stored.childTags := hsame fun _ _ => rfl
  refine ⟨?_, hcopy.subscription, hcopy.follows.congr ?_ ?_, hcopy.migrationId⟩
  · rw [Stored.childTag?, hchildTags]
    exact hcopy.held
  · rw [hs.shown, hs'.shown]
    exact hsame (g := Stored.templates) fun _ _ => rfl
  · rw [hs.shown, hs'.shown]
    exact hsame (g := Stored.subscriptions) fun _ _ => rfl

/-! ## Syncing what is locked -/

/-- Where all categories have locks of their own, a sync that does not assign the state forgets all that
is recorded of a copy, if it is of governed columns or a deletion and any category is registered. -/
theorem mem_forget_of_locked {g : Category} (hlocked : ∀ g, r.isLocked g = true)
    (hg : g ∈ (b.registry tag.content.kind).categories)
    (hstate : tag.content.kind.stateColumn ∉ assignments.map Prod.fst)
    (hchanges : ∀ x ∈ tag.changes,
      x ∈ (b.registry tag.content.kind).allColumns ∨ x = manuallyDeleted)
    {x : String} (hx : x ∈ tag.changes) : x ∈ (syncPlan b r tag assignments).forget := by
  rw [mem_forget_syncPlan]
  rcases hchanges x hx with hgoverned | rfl
  · obtain ⟨g', hg'⟩ := Schema.mem_allColumns.1 hgoverned
    exact .inl ⟨hx, g', hg', hlocked g'⟩
  · -- the state is to be written, since the copy was deleted
    have hpending : tag.content.kind.stateColumn ∈ (copyWanted tag assignments).pending.keys := by
      rw [Dict.mem_keys_iff, (state_copyWanted hx hstate).1]
      rfl
    exact .inr ⟨rfl, bringsBack_copyWanted hx hpending,
      Restrictions.restrict_any_iff.2 (.inr ⟨g, hg, hlocked g⟩)⟩

/-- Such a sync leaves the copy without recorded changes, and the locks as they are. -/
theorem sync_of_locked {held : String → Restrictions} {report : Report} (hs : s.Orderly b)
    (htidy : s.stored.Tidy b) (hcopy : s.CopyOf b id t master tag) (hlocks : s.stored.locks = .ok held)
    (hlocked : ∀ g, (held (t.migrationId b.settings.marker master)).isLocked g = true)
    (hregistered : ∀ k : Kind, k.allowedInBlueprint = true → .content ∈ (b.registry k).categories)
    (hstate : tag.content.kind.stateColumn ∉ assignments.map Prod.fst)
    (h : (sync b id master assignments).run s = (.ok report, s')) :
    ∃ time, s'.CopyOf b id t master (tag.withChanges ∅ time) ∧ s'.stored.locks = .ok held := by
  obtain ⟨d, hrewrites, rfl⟩ := rewrites_of_copy hs htidy hcopy h
  obtain ⟨time, hcopy'⟩ := hrewrites.copyOf hs hcopy hlocks
  have hnothing : tag.changes \ (syncPlan b
      (held (t.migrationId b.settings.marker master)) tag assignments).forget = ∅ := by
    obtain ⟨rows, hrows, hfind⟩ := Store.childTag?_eq_some hcopy.held
    have hrow : tag ∈ rows := List.mem_of_find?_eq_some hfind
    refine NameSet.eq_of_mem_iff fun x => ?_
    rw [NameSet.mem_diff]
    refine ⟨fun hx => absurd ?_ hx.2, fun hx => absurd hx (NameSet.not_mem_empty x)⟩
    exact mem_forget_of_locked hlocked (hregistered _ (htidy.kinds rows hrows tag hrow)) hstate
      (htidy.changes rows hrows tag hrow) hx.1
  rw [hnothing] at hcopy'
  exact ⟨time, hcopy', (sameLocks_sync hs.ready h).eq.trans hlocks⟩

/-! ## Looking at what is synced -/

/-- The copies of a subscription that are listed as changed are those with recorded changes. -/
theorem run_status {rows : List ChildTag} (hs : s.Ready) (hfollows : s.Follows id t)
    (hrows : s.stored.childTags = .ok rows) :
    ∃ report, (status id).run s = (.ok report, s) ∧ ∀ c, c ∈ report.childTags ↔
      c ∈ rows ∧ c.subscriptionId = id ∧ c.changes.isEmpty = false := by
  obtain ⟨subscriptions, templates, sub, hsubscriptions, hsub, -, -⟩ := hfollows
  have hid : sub.id = id := by simpa using List.find?_some hsub
  have hfound : (subscription id).run s = (.ok sub, s) := by
    rw [run_subscription, hsubscriptions, Except.map, hsub]
    rfl
  have hlisted := run_childTagsOf sub.id s
  rw [hs.shown, hrows] at hlisted
  rw [status, Action.run_bind_ok hfound, Action.run_bind_ok hlisted]
  refine ⟨_, rfl, fun c => ?_⟩
  -- the message without a row to list is all that the two answers differ in
  rw [apply_ite Report.childTags, Report.say, ite_self, List.mem_filter, List.mem_mergeSort,
    List.mem_filter, decide_eq_true_eq, hid, Bool.not_eq_true', and_assoc]

/-- A copy without recorded changes is not listed. -/
theorem not_listed_of_clean (hs : s.Orderly b) (hcopy : s.CopyOf b id t master tag)
    (hclean : tag.changes = ∅) : ∃ report, (status id).run s = (.ok report, s) ∧
      ∀ c ∈ report.childTags, c.content ≠ tag.content := by
  obtain ⟨rows, hrows, hfind⟩ := Store.childTag?_eq_some hcopy.held
  obtain ⟨report, hrun, hlisted⟩ := run_status hs.ready hcopy.follows hrows
  refine ⟨report, hrun, fun c hc hcontent => ?_⟩
  obtain ⟨hmem, -, hchanged⟩ := (hlisted c).1 hc
  obtain ⟨ts, hstored, hts⟩ := hs.keyed
  rw [hstored] at hrows
  obtain rfl := Except.ok.inj hrows
  obtain rfl := Tables.eq_of_nodup_map hts.contents hmem (List.mem_of_find?_eq_some hfind) hcontent
  rw [hclean] at hchanged
  cases hchanged

/-- A preview keeps no category where all have locks of their own. -/
theorem keeps_nothing_of_locked {held : String → Restrictions} (hs : s.Orderly b)
    (hcopy : s.CopyOf b id t master tag) (hlocks : s.stored.locks = .ok held)
    (hlocked : ∀ g, (held (t.migrationId b.settings.marker master)).isLocked g = true) :
    ∃ report, (preview b tag.content).run s = (.ok report, s) ∧ report.kept = some [] := by
  obtain ⟨kept, hrun, hkept⟩ := run_preview hs hcopy hlocks
  refine ⟨_, hrun, congrArg some (List.eq_nil_iff_forall_not_mem.2 fun g hg => ?_)⟩
  obtain ⟨hfree, -⟩ := (hkept g).1 hg
  rw [hlocked g] at hfree
  cases hfree

end Command

/-- Once the last of the categories of blueprint content is locked, a sync of a copy of it that does not
assign the state of the copy leaves nothing recorded for it; the subscription does not list it as changed,
and a preview keeps no category of it. -/
theorem lockedCopy_converges {config : Config} {b : Rulebook} {events : List Event}
    {s₀ s₁ s₂ : Store} {id : Uuid} {t : Template} {master : ContentKey} {tag : ChildTag}
    {locks : List Lock} {texts : List String} {assignments : List Assignment}
    {locked synced : Report} (hconfig : config.rulebook = .ok b) (hclock : s₀.supply.ShowsDates)
    (hempty : s₀.stored = .of .empty) (hcopy : (runEvents b events s₀).CopyOf b id t master tag)
    (hlock : ((Request.setLocks t.courseId master locks true).run b).run (runEvents b events s₀) =
      (.ok locked, s₁))
    (hall : ∀ g, .only g ∈ locks ∨ (runEvents b events s₀).LockOn b t master (.only g))
    (htexts : Assignment.ofTexts texts = .ok assignments)
    (hstate : tag.content.kind.stateColumn ∉ assignments.map Prod.fst)
    (hsync : ((Request.sync id master texts).run b).run s₁ = (.ok synced, s₂)) :
    (∃ tag', s₂.stored.childTag? tag.content = .ok (some tag') ∧ tag'.changes = ∅) ∧
    (∃ report, ((Request.status id).run b).run s₂ = (.ok report, s₂) ∧
      ∀ c ∈ report.childTags, c.content ≠ tag.content) ∧
    ∃ report, ((Request.preview tag.content).run b).run s₂ = (.ok report, s₂) ∧
      report.kept = some [] := by
  have hs : (runEvents b events s₀).Orderly b :=
    orderly_runEvents (Store.orderly_of_empty hclock hempty) events
  have htidy : (runEvents b events s₀).stored.Tidy b := tidy_runEvents hclock hempty events
  have hlocking := Request.moves_allowed_run hs.ready hlock
  have hs₁ : s₁.Orderly b := hlocking.orderly hs
  have hs₂ : s₂.Orderly b := (Request.moves_allowed_run hs₁.ready hsync).orderly hs₁
  have ht : (runEvents b events s₀).stored.HasTemplate t := by
    obtain ⟨_, templates, _, -, -, htemplates, hfind⟩ := hcopy.follows
    exact ⟨templates, by rw [← hs.ready.shown, htemplates], List.mem_of_find?_eq_some hfind⟩
  obtain ⟨held, hlocks, hon⟩ := Command.isOn_of_setLocks hs htidy ht hlock
  have hlocked : ∀ g, (held (t.migrationId b.settings.marker master)).isLocked g = true :=
    fun g => hon (.only g) (hall g)
  have hcopy₁ : s₁.CopyOf b id t master tag :=
    Command.copyOf_of_setLocks hs.ready hs₁.ready hcopy hlock
  rw [Request.run_sync b s₁ id master htexts] at hsync
  obtain ⟨time, hcopy₂, hlocks₂⟩ := Command.sync_of_locked hs₁ (hlocking.tidy (fun _ h => h) htidy)
    hcopy₁ hlocks hlocked (fun k hk => Config.content_registered (Config.registry_of_rulebook hconfig) hk)
    hstate hsync
  have hunlisted := Command.not_listed_of_clean hs₂ hcopy₂ rfl
  have hpreviewed := Command.keeps_nothing_of_locked hs₂ hcopy₂ hlocks₂ hlocked
  exact ⟨⟨_, hcopy₂.held, rfl⟩, hunlisted, hpreviewed⟩

/-! ## A page that is locked as a whole -/

namespace Sample

/-- The copy of a page is edited and deleted. -/
def editAndDelete : List Event :=
  firstSync ++
    [.request (.edit (copyTag []).content ["body=new", "editing_roles=teachers"] true false)]

/-- The locks of all categories. -/
def allCategories : List Lock := Category.all.map .only

/-- The store in which they are set. -/
def lockedAsAWhole : Result Report × Store :=
  ((Request.setLocks ⟨10⟩ page allCategories true).run rulebook).run
    (runEvents rulebook editAndDelete (.inMemory supply))

/-- The store after the next sync, which assigns the body. -/
def syncedAsAWhole : Result Report × Store :=
  ((Request.sync (supply.ids 1) page ["body=x"]).run rulebook).run lockedAsAWhole.2

/-- The two edited columns and the deletion are recorded before, and nothing is afterwards. -/
theorem converges_page :
    (runEvents rulebook editAndDelete (.inMemory supply)).CopyOf rulebook (supply.ids 1) madeTemplate
      page (copyTag ["body", "editing_roles", manuallyDeleted]) ∧
    (∃ tag', syncedAsAWhole.2.stored.childTag? (copyTag []).content = .ok (some tag') ∧
      tag'.changes = ∅) ∧
    (∃ report, ((Request.status (supply.ids 1)).run rulebook).run syncedAsAWhole.2 =
        (.ok report, syncedAsAWhole.2) ∧
      ∀ c ∈ report.childTags, c.content ≠ (copyTag []).content) ∧
    ∃ report, ((Request.preview (copyTag []).content).run rulebook).run syncedAsAWhole.2 =
      (.ok report, syncedAsAWhole.2) ∧ report.kept = some [] := by
  have hcopy : (runEvents rulebook editAndDelete (.inMemory supply)).CopyOf rulebook (supply.ids 1)
      madeTemplate page (copyTag ["body", "editing_roles", manuallyDeleted]) :=
    copyOf_page rfl (by decide +kernel)
  have hanswered : lockedAsAWhole.1.toOption.isSome = true ∧
      syncedAsAWhole.1.toOption.isSome = true := by decide +kernel
  obtain ⟨locked, hlocked⟩ := Option.isSome_iff_exists.1 hanswered.1
  obtain ⟨synced, hsynced⟩ := Option.isSome_iff_exists.1 hanswered.2
  have hlock : ((Request.setLocks madeTemplate.courseId page allCategories true).run rulebook).run
      (runEvents rulebook editAndDelete (.inMemory supply)) = (.ok locked, lockedAsAWhole.2) :=
    Prod.ext (Result.toOption_eq_some.1 hlocked) rfl
  have hsync : ((Request.sync (supply.ids 1) page ["body=x"]).run rulebook).run lockedAsAWhole.2 =
      (.ok synced, syncedAsAWhole.2) := Prod.ext (Result.toOption_eq_some.1 hsynced) rfl
  have hall : ∀ g, .only g ∈ allCategories := by
    intro g
    exact List.mem_map_of_mem g.mem_all
  have htexts : Assignment.ofTexts ["body=x"] = .ok [("body", Assignment.valueOf "x")] := rfl
  have hconfig : Config.usual.rulebook = .ok rulebook := rfl
  have hconverges := lockedCopy_converges hconfig showsDates_supply rfl hcopy hlock
    (fun g => .inl (hall g)) htexts (by decide) hsync
  exact ⟨hcopy, hconverges⟩

end Sample

end CourseBlueprint
