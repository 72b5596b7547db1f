import CourseBlueprint.Proofs.Command.EditLocks
import CourseBlueprint.Proofs.Command.Moves
import CourseBlueprint.Proofs.Command.Soundness
import CourseBlueprint.Proofs.Save.Atomicity

/-!
# What a failed request leaves

A request looks things up before it writes, and a write that fails leaves the tables as they were. So
does a request that fails (`Request.failed_leaves_tables`), with one exception. A sync that meets
content for the first time writes its master tag before it looks for the copies; if the child tags
cannot be read it fails there, and the new master tag stays (`Command.OnlyTracked`).
-/

namespace CourseBlueprint

namespace Command

variable {b : Rulebook} {v : Holdings} {s s' : Store}

/-! ## One write -/

theorem spares_makeBlueprint (course : Uuid) : Store.Spares v (makeBlueprint course) := by
  refine .bind (Store.keeps_templateOf? course) fun found => ?_
  split
  · exact .of_keeps (.pure _)
  · exact .map (Store.spares_findOrCreateTemplate course)

theorem spares_subscribe (master child : Uuid) : Store.Spares v (subscribe master child) := by
  unfold subscribe
  split
  · exact .of_keeps (.fail_bind _ _)
  · refine .bind (keeps_templateOf master) fun t => ?_
    exact .map (Store.spares_findOrCreateSubscription _ _)

theorem pristine_masterTagOrNew (t : Template) (content : ContentKey) :
    Action.Keeps (Store.Pristine v) (masterTagOrNew b t content) := by
  refine .bind (Store.KeptByLooking.masterTag? Store.pristine_masterTagsWith _) fun found => ?_
  split
  · exact .pure _
  · refine .bind Store.pristine_newId fun id => .bind ?_ fun time => .pure _
    exact Store.pristine_now.mono (fun _ h => h) (fun _ _ h => h.1) fun _ h => h

theorem spares_setLocks (course : Uuid) (content : ContentKey) (locks : List Lock) (on : Bool) :
    Store.Spares v (setLocks b course content locks on) := by
  unfold setLocks
  simp only
  split
  · exact .of_keeps (.fail_bind _ _)
  · split
    · exact .of_keeps (.fail_bind _ _)
    · refine .bind (keeps_templateOf course) fun t => ?_
      refine .bind (pristine_masterTagOrNew t content) fun old => ?_
      refine .bind (Store.pristine_now.mono (fun _ h => h) (fun _ _ h => h.1) fun _ h => h)
        fun time => ?_
      exact .map (Store.spares_saveMasterTag _)

/-! ## Edits -/

/-- After an edit has recorded changes, its tag can still be read. -/
theorem spares_edit (content : ContentKey) (changes : Changes) :
    Store.Spares v (edit b content changes) := by
  refine .bind (keeps_copyTag content) fun tag => ?_
  simp only
  split
  · exact .of_keeps (.fail_bind _ _)
  · have hread : ∀ f : Option ChildTag → Report, Action.Triple (Store.Safe v)
        (Store.childTag? content >>= fun found => pure (f found)) (fun _ _ => True)
        fun s => s.holdings = v :=
      fun f => Action.Triple.mono (Store.Atomic.bind (Store.atomic_childTag? content)
        fun found => .pure (f found)) (fun _ h => h) (fun _ _ _ => trivial) fun _ h => h
    exact Action.Triple.bind (Work.triple_on Rulebook.spares_save _) fun saved => hread _

/-! ## Syncs -/

/-- What a sync leaves that failed once it had tracked new content: the child tags cannot be read,
and of the tables only that of the master tags has changed. It has one more tag, which locks
nothing. -/
inductive OnlyTracked (b : Rulebook) (s : Store) (id : Uuid) (master : ContentKey) (s' : Store) :
    Prop
  | intro {sub : Subscription} {t : Template} {rows : List MasterTag} {tag : MasterTag} {e : Failure}
      (hsub : (subscription id).run s = (.ok sub, s))
      (ht : (template sub.templateId).run s = (.ok t, s))
      (hunread : s.stored.childTags = .error e)
      (hrows : s.stored.masterTags = .ok rows)
      (hnew : ∀ row ∈ rows, row.migrationId ≠ t.migrationId b.settings.marker master)
      (htemplate : tag.templateId = t.id) (hcontent : tag.content = master)
      (hid : tag.migrationId = t.migrationId b.settings.marker master)
      (hrestrictions : tag.restrictions = Restrictions.none)
      (hheld : s'.holdings = s.holdings.withMasterTags (rows ++ [tag]))

/-- An import is never rejected, and fails only while nothing was written. -/
theorem holdings_of_saveImported {m : Migration} {i : Item} {e : Failure} (hs : s.Safe v)
    (h : (saveImported b m i).run s = (.error e, s')) : s'.holdings = v := by
  rw [saveImported] at h
  rcases Action.run_bind_ends h with ⟨e', hon, -⟩ | ⟨⟨outcome, d⟩, s₁, hon, h⟩
  · have hspared := (Rulebook.atomic_importing (b := b) (c := .importing m) rfl).on i s hs
    rw [hon] at hspared
    exact hspared
  · obtain ⟨hsave, rfl⟩ := Work.run_on_eq_ok.1 hon
    cases outcome with
    | saved report => cases h
    | rejected r =>
      cases Rulebook.stages hsave with
      | rejected hcheck =>
        rw [Rulebook.run_check_import rfl] at hcheck
        cases hcheck

/-- A copy that was saved for the first time is found. -/
theorem holdings_of_createCopy {m : Migration} {kind : Kind} {id : String}
    {assignments : List Assignment} {e : Failure} (hs : s.Safe v)
    (hmarks : b.settings.marks id = true)
    (h : (createCopy b m kind id assignments).run s = (.error e, s')) : s'.holdings = v := by
  rw [createCopy, Action.run_bind_ok (Store.run_newId s)] at h
  have hs₁ : s.afterId.Safe v := Store.atomic_newId s hs
  rcases Action.run_bind_ends h with ⟨e', hsaved, -⟩ | ⟨saved, s₁, hsaved, h⟩
  · exact holdings_of_saveImported hs₁ hsaved
  · obtain ⟨tag, hfound⟩ := foundOrCreated_of_saveImported hs₁.clock hmarks hsaved
    obtain ⟨hopen, hheld⟩ := hfound.held
    rw [run_savedTag, Store.seen_of_isOpen hopen, hheld] at h
    cases h

/-- A sync that has begun has changed nothing yet, or has shown that what is left to do cannot
fail. -/
theorem SyncBegun.safe {id : Uuid} {master : ContentKey} {sub : Subscription} {t : Template}
    {masterTag : MasterTag} {tags : List ChildTag} {m : Migration} {s₁ : Store}
    (h : SyncBegun b s id master sub t masterTag tags m s₁) (hclock : s.supply.ShowsDates) :
    s₁.Safe s.holdings := by
  have hready : s.Ready := ready_of_subscription hclock h.subscription
  obtain ⟨-, rows, hrows, -⟩ := of_childTagsOf h.tags
  cases Command.tracked hready h.tracked with
  | found halike hopen htags hfind hheld => exact ⟨halike.supply ▸ hclock, .inl hheld⟩
  | made hlater hopen htags hnew htemplate hcontent hid hrestrictions hstored hheld =>
    refine ⟨hlater.showsDates hclock, hheld.imp_right fun hwritten => ⟨hwritten.1, hopen, rows, ?_⟩⟩
    rw [← Store.seen_of_isOpen hopen]
    exact hrows

theorem of_failed_sync {id : Uuid} {master : ContentKey} {assignments : List Assignment}
    {e : Failure} (hclock : s.supply.ShowsDates)
    (h : (sync b id master assignments).run s = (.error e, s')) :
    s'.holdings = s.holdings ∨ OnlyTracked b s id master s' := by
  generalize hr : Except.error e = r at h
  cases sync_ends h with
  | stopped => exact .inl rfl
  | untracked hkind hsub ht htracked =>
    cases tracked (ready_of_subscription hclock hsub) htracked with
    | failed hlater hopen hstored hheld => exact .inl hheld
  | unread hkind hsub ht htracked hunread =>
    cases tracked (ready_of_subscription hclock hsub) htracked with
    | found halike hopen hrows htag hheld => exact .inl hheld
    | made hlater hopen hrows hnew htemplate hcontent hid hrestrictions hstored hheld =>
      rw [Store.seen_of_isOpen hopen, hstored] at hunread
      rcases hunread with hunread | hunread
      · refine hheld.imp_right fun hwritten => ?_
        exact ⟨hsub, ht, hunread, hrows, hnew, htemplate, hcontent, hid, hrestrictions, hwritten.2⟩
      · cases hunread
  | copied hbegun hnone hmade =>
    obtain rfl := map_eq_error.1 hr.symm
    exact .inl (holdings_of_createCopy (hbegun.safe hclock) (b.settings.marks_migrationId _ _) hmade)
  | @resynced sub t masterTag tags m s₁ _ existing saved hbegun hexisting hsaved =>
    cases saved with
    | error e' => exact .inl (holdings_of_saveImported (hbegun.safe hclock) hsaved)
    | ok done =>
      -- the copy was there before it was saved, so it still is
      exfalso
      have hready : s.Ready := ready_of_subscription hclock hbegun.subscription
      have hopen₁ := (tracked hready hbegun.tracked).of_ok.1
      obtain ⟨rows, hrows, hmem⟩ := hbegun.mem_tags (Store.seen_of_isOpen hopen₁)
      have hrow : existing ∈ rows := ((hmem existing).1 (List.mem_of_find?_eq_some hexisting)).1
      obtain ⟨tag, htag⟩ : ∃ tag, s₁.stored.childTag? existing.content = .ok (some tag) := by
        rw [Store.childTag?_of_rows hrows]
        cases hfind : Tables.childTagIn rows existing.content with
        | some tag => exact ⟨tag, rfl⟩
        | none => exact absurd rfl (of_decide_eq_false
            (Bool.eq_false_iff.2 (List.find?_eq_none.1 hfind existing hrow)))
      have hevolves : s₁.Evolves s' :=
        (evolves_saveImported (hbegun.safe hclock).clock m _).of_run hsaved (.refl s₁)
      obtain ⟨changes, time, hleft⟩ := hevolves.steps.childTag? htag
      rw [Store.seen_of_isOpen (hevolves.isOpen hopen₁), hleft] at hr
      cases hr

end Command

/-! ## Requests -/

open Command in
/-- A request that fails leaves the tables as they were, unless it is a sync that fails right after
it has tracked new content. -/
theorem Request.failed_leaves_tables {b : Rulebook} {s s' : Store} {r : Request} {e : Failure}
    (hclock : s.supply.ShowsDates) (h : (r.run b).run s = (.error e, s')) :
    s'.holdings = s.holdings ∨ ∃ id master assignments,
      r = .sync id master assignments ∧ OnlyTracked b s id master s' := by
  have hspared : ∀ {x : Action Store Report}, Store.Spares s.holdings x →
      x.run s = (.error e, s') → s'.holdings = s.holdings := by
    intro x hx hrun
    have hfailed := hx s ⟨hclock, rfl⟩
    rw [hrun] at hfailed
    exact hfailed
  cases r with
  | makeBlueprint course => exact .inl (hspared (spares_makeBlueprint course) h)
  | subscribe master child => exact .inl (hspared (spares_subscribe master child) h)
  | sync subscription master texts =>
    rcases Action.run_bind_ends h with ⟨e', hread, -⟩ | ⟨assignments, s₁, hread, h⟩
    · rw [Action.run_liftM] at hread
      obtain ⟨-, rfl⟩ := Prod.mk.inj hread
      exact .inl rfl
    · obtain ⟨-, rfl⟩ := Action.run_liftM_eq_ok.1 hread
      exact (of_failed_sync hclock h).imp_right fun htracked => ⟨_, _, _, rfl, htracked⟩
  | setLocks course content locks on => exact .inl (hspared (spares_setLocks course content locks on) h)
  | showContent course content =>
    exact .inl (hspared (.of_keeps (keeps_showContent Store.pristine_masterTagsWith _ _)) h)
  | inspect content =>
    exact .inl (hspared (.of_keeps (keeps_inspect Store.pristine_masterTagsWith _)) h)
  | edit content texts delete system =>
    exact .inl (hspared (.bind (.liftM _) fun assignments => spares_edit _ _) h)
  | status subscription => exact .inl (hspared (.of_keeps (keeps_status _)) h)
  | preview content =>
    exact .inl (hspared (.of_keeps (keeps_preview Store.pristine_masterTagsWith _)) h)
  | listSchemas kind? => cases h
  | showConfig => cases h

/-! ## Child tags that cannot be read -/

namespace Sample

open Directory Command

/-- Where writes are refused, so is a lock, and the tables are as they were. -/
theorem failed_leaves_tables_locking : ∃ e s',
    ((Request.setLocks template.courseId page [.everything] true).run rulebook).run
      (subscribed.refusingWrites true) = (.error e, s') ∧
      s'.holdings = (subscribed.refusingWrites true).holdings := by
  refine ⟨.writeRefused, _, rfl, ?_⟩
  rcases Request.failed_leaves_tables (b := rulebook) (s := subscribed.refusingWrites true)
    (r := .setLocks template.courseId page [.everything] true) (e := .writeRefused)
    showsDates_supply rfl with hheld | ⟨id, master, assignments, hsync, -⟩
  · exact hheld
  · cases hsync

/-- The files of a blueprint and a course that follows it, and one of child tags that is no JSON. -/
def unreadCopies : Dict Entry :=
  (((∅ : Dict Entry).put templateTable.file (.file (Template.format.encode [template]))).put
    subscriptionTable.file (.file (Subscription.format.encode [subscription]))).put
    childTagTable.file (.file "oops")

/-- The store of these files. -/
def unread : Store := .inDirectory (.present unreadCopies) supply

/-- The master tag that a sync makes there. -/
def leftTag : MasterTag :=
  ⟨supply.ids 0, template.id, page, template.migrationId rulebook.settings.marker page,
    Restrictions.none, .epoch, .epoch⟩

/-- The store that the sync leaves. -/
def unreadAfter : Store :=
  .inDirectory (.present ((unreadCopies.put lockFile (.file "")).put masterTagTable.file
    (.file (MasterTag.format.encode [leftTag])))) { supply with idsUsed := 1, timesUsed := 1 }

theorem run_subscription_unread :
    (Command.subscription subscription.id).run unread = (.ok subscription, unread) := by
  have hentry : (Directory.present unreadCopies).entries.get? subscriptionTable.file =
      some (.file (Subscription.format.encode [subscription])) := rfl
  have hrows : unread.seen.subscriptions = .ok [subscription] := by
    refine (Directory.stored_eq subscriptionTable (.present unreadCopies)).trans ?_
    rw [hentry]
    simp only [subscriptionTable]
    rw [Subscription.format_faithful.decode?_encode fun _ _ => trivial]
    rfl
  rw [run_subscription, hrows]
  rfl

theorem run_template_unread :
    (Command.template subscription.templateId).run unread = (.ok template, unread) := by
  have hentry : (Directory.present unreadCopies).entries.get? templateTable.file =
      some (.file (Template.format.encode [template])) := rfl
  have hdated : ∀ t ∈ [template], t.IsDated := by
    intro t ht
    rw [List.mem_singleton.1 ht]
    exact showsDates_supply 0
  have hrows : unread.seen.templates = .ok [template] := by
    refine (Directory.stored_eq templateTable (.present unreadCopies)).trans ?_
    rw [hentry]
    simp only [templateTable]
    rw [Template.format_faithful.decode?_encode hdated]
    rfl
  rw [run_template, hrows]
  rfl

/-- The sync fails after it has saved the master tag. -/
theorem run_sync_unread : ((Request.sync subscription.id page []).run rulebook).run unread =
    (.error .undecodable, unreadAfter) := by
  have hread : (liftM (Assignment.ofTexts []) : Action Store (List Assignment)).run unread =
      (.ok [], unread) := rfl
  have hlook : (Store.masterTag? (template.migrationId rulebook.settings.marker page)).run unread =
      (.ok none, unread) := rfl
  have htracked : (trackedMasterTag rulebook template page).run unread = (.ok leftTag, unreadAfter) := by
    rw [trackedMasterTag, Action.run_bind_ok hlook]
    rfl
  have htags : (Store.childTagsOf subscription.id).run unreadAfter =
      (.error .undecodable, unreadAfter) := rfl
  rw [Request.run, Action.run_bind_ok hread, sync, if_neg (by decide),
    Action.run_bind_ok run_subscription_unread, Action.run_bind_ok run_template_unread,
    Action.run_bind_ok htracked]
  exact Action.run_bind_error htags

/-- So not every request that fails leaves the tables as they were. -/
theorem not_failed_leaves_tables : ¬ ∀ (b : Rulebook) (s s' : Store) (r : Request) (e : Failure),
    s.supply.ShowsDates → (r.run b).run s = (.error e, s') → s'.holdings = s.holdings := by
  intro h
  have hheld := h rulebook unread unreadAfter _ _ showsDates_supply run_sync_unread
  injection hheld with _ _ hwritten
  have hnone : (Directory.present unreadCopies).entries.get? masterTagTable.file = none := rfl
  rw [hnone] at hwritten
  exact Option.some_ne_none _ hwritten

end Sample

end CourseBlueprint
