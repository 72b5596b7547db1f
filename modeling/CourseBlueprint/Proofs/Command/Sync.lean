import CourseBlueprint.Proofs.Command.Evolution
import CourseBlueprint.Proofs.Store.Atomicity
import CourseBlueprint.Proofs.Store.Changes

/-!
# How a sync ends

What the look-ups of commands answer, as functions of what is seen. `Tracked` lists the ends of
tracking blueprint content, and `SyncEnds` those of a sync: it stopped at a look-up, it made a copy,
or it wrote the copy that was there.
-/

namespace CourseBlueprint

namespace Command

variable {b : Rulebook} {s s' : Store}

/-! ## Look-ups -/

section Looking

variable {α β : Type}

/-- A row that a command cannot do without. -/
theorem run_require {o : Result (Option α)} {x : Action Store (Option α)} (e : Failure)
    (hx : x.run s = (o, s)) :
    (x >>= fun found => liftM (Result.ofOption e found)).run s =
      (o.bind (Result.ofOption e), s) := by
  rw [Action.run_bind, hx]
  cases o with
  | error e' => rfl
  | ok found => rfl

theorem bind_ofOption_eq_ok {o : Result (Option α)} {e : Failure} {a : α} :
    o.bind (Result.ofOption e) = .ok a ↔ o = .ok (some a) := by
  cases o with
  | error e' => exact ⟨nofun, nofun⟩
  | ok found =>
    cases found with
    | none => exact ⟨nofun, nofun⟩
    | some a' =>
      constructor
      · rintro ⟨⟩
        rfl
      · rintro ⟨⟩
        rfl

theorem map_eq_ok {o : Result α} {f : α → β} {v : β} :
    o.map f = .ok v ↔ ∃ a, o = .ok a ∧ f a = v := by
  cases o with
  | error e => exact ⟨nofun, nofun⟩
  | ok a =>
    constructor
    · rintro ⟨⟩
      exact ⟨a, rfl, rfl⟩
    · rintro ⟨a', ha, rfl⟩
      cases ha
      rfl

theorem map_eq_error {o : Result α} {f : α → β} {e : Failure} :
    o.map f = .error e ↔ o = .error e := by
  cases o with
  | error e' => exact ⟨fun h => congrArg Except.error (Except.error.inj h), fun h => by rw [h]; rfl⟩
  | ok a => exact ⟨nofun, nofun⟩

end Looking

theorem run_templateOf (course : Uuid) (s : Store) :
    (templateOf course).run s =
      ((s.seen.templates.map fun rows => rows.find? fun t => t.courseId = course).bind
        (Result.ofOption (.noTemplateOf course)), s) :=
  run_require _ (Store.run_templateOf? course s)

theorem run_template (id : Uuid) (s : Store) :
    (template id).run s = ((s.seen.templates.map fun rows => rows.find? fun t => t.id = id).bind
      (Result.ofOption (.noTemplate id)), s) :=
  run_require _ (Store.run_template? id s)

theorem run_subscription (id : Uuid) (s : Store) :
    (subscription id).run s =
      ((s.seen.subscriptions.map fun rows => rows.find? fun sub => sub.id = id).bind
        (Result.ofOption (.noSubscription id)), s) :=
  run_require _ (Store.run_subscription? id s)

theorem run_copyTag (content : ContentKey) (s : Store) :
    (copyTag content).run s =
      ((s.seen.childTag? content).bind (Result.ofOption (.notACopy content)), s) :=
  run_require _ (Store.run_childTag? content s)

theorem run_savedTag (content : ContentKey) (s : Store) :
    (savedTag content).run s =
      ((s.seen.childTag? content).bind (Result.ofOption (.untracked content)), s) :=
  run_require _ (Store.run_childTag? content s)

theorem run_childTagsOf (id : Uuid) (s : Store) :
    (Store.childTagsOf id).run s = (s.seen.childTags.map fun rows =>
      (rows.filter fun t => t.subscriptionId = id).mergeSort fun t u => t.content.le u.content, s) :=
  Action.run_read (Store.run_childTags s)

/-- The migration of a subscription that knows the restrictions of the given master tags. -/
def migrationOf (sub : Subscription) (tags : List MasterTag) : Migration :=
  ⟨sub, .ofList (tags.map fun t => (t.migrationId, t.restrictions)), []⟩

theorem run_load (sub : Subscription) (s : Store) :
    (Migration.load sub).run s = ((s.seen.masterTags.map fun rows =>
      (rows.filter fun t => t.templateId = sub.templateId).mergeSort
        fun t u => t.migrationId ≤ u.migrationId).map (migrationOf sub), s) :=
  Action.run_read (Action.run_read (Store.run_masterTags s))

theorem of_templateOf {course : Uuid} {t : Template} (h : (templateOf course).run s = (.ok t, s')) :
    s = s' ∧ ∃ rows, s.seen.templates = .ok rows ∧
      (rows.find? fun row => row.courseId = course) = some t := by
  rw [run_templateOf] at h
  obtain ⟨hfound, rfl⟩ := Prod.mk.inj h
  exact ⟨rfl, map_eq_ok.1 (bind_ofOption_eq_ok.1 hfound)⟩

theorem of_subscription {id : Uuid} {sub : Subscription}
    (h : (subscription id).run s = (.ok sub, s')) :
    s = s' ∧ ∃ rows, s.seen.subscriptions = .ok rows ∧
      (rows.find? fun row => row.id = id) = some sub := by
  rw [run_subscription] at h
  obtain ⟨hfound, rfl⟩ := Prod.mk.inj h
  exact ⟨rfl, map_eq_ok.1 (bind_ofOption_eq_ok.1 hfound)⟩

/-- A subscription is found only where the tables are there. -/
theorem ready_of_subscription {id : Uuid} {sub : Subscription} (hclock : s.supply.ShowsDates)
    (h : (subscription id).run s = (.ok sub, s')) : s.Ready := by
  obtain ⟨-, rows, hrows, hfind⟩ := of_subscription h
  exact ⟨hclock, Store.seen_of_isOpen (Store.isOpen_of_shown (g := Stored.subscriptions) rfl hrows
    (List.mem_of_find?_eq_some hfind))⟩

theorem of_template {id : Uuid} {t : Template} (h : (template id).run s = (.ok t, s')) :
    s = s' ∧ ∃ rows, s.seen.templates = .ok rows ∧ (rows.find? fun row => row.id = id) = some t := by
  rw [run_template] at h
  obtain ⟨hfound, rfl⟩ := Prod.mk.inj h
  exact ⟨rfl, map_eq_ok.1 (bind_ofOption_eq_ok.1 hfound)⟩

theorem of_savedTag {content : ContentKey} {tag : ChildTag}
    (h : (savedTag content).run s = (.ok tag, s')) :
    s = s' ∧ s.seen.childTag? content = .ok (some tag) := by
  rw [run_savedTag] at h
  obtain ⟨hfound, rfl⟩ := Prod.mk.inj h
  exact ⟨rfl, bind_ofOption_eq_ok.1 hfound⟩

theorem of_load {sub : Subscription} {m : Migration}
    (h : (Migration.load sub).run s = (.ok m, s')) : s = s' ∧ m.subscription = sub := by
  rw [run_load] at h
  obtain ⟨hloaded, rfl⟩ := Prod.mk.inj h
  obtain ⟨tags, -, rfl⟩ := map_eq_ok.1 hloaded
  exact ⟨rfl, rfl⟩

/-- The child tags of a subscription are among those that are seen. -/
theorem of_childTagsOf {subscription : Uuid} {tags : List ChildTag}
    (h : (Store.childTagsOf subscription).run s = (.ok tags, s')) :
    s = s' ∧ ∃ rows, s.seen.childTags = .ok rows ∧
      ∀ tag, tag ∈ tags ↔ tag ∈ rows ∧ tag.subscriptionId = subscription := by
  rw [run_childTagsOf] at h
  obtain ⟨hfound, rfl⟩ := Prod.mk.inj h
  obtain ⟨rows, hrows, rfl⟩ := map_eq_ok.1 hfound
  refine ⟨rfl, rows, hrows, fun tag => ?_⟩
  rw [List.mem_mergeSort, List.mem_filter, decide_eq_true_eq]

/-! ## Tracking blueprint content -/

/-- The ends of tracking blueprint content: it failed and changed no row; a master tag was found; or
one was made and saved. -/
inductive Tracked (b : Rulebook) (s : Store) (t : Template) (content : ContentKey) :
    Result MasterTag → Store → Prop
  | failed {e : Failure} {s' : Store} (hlater : s.supply.Later s'.supply)
      (hopen : s.isOpen = true → s'.isOpen = true) (hstored : s'.stored = s.stored)
      (hheld : s'.holdings = s.holdings) :
      Tracked b s t content (.error e) s'
  | found {rows : List MasterTag} {tag : MasterTag} {s' : Store} (halike : s.Alike s')
      (hopen : s.isOpen = true) (hrows : s.stored.masterTags = .ok rows)
      (htag : (rows.find? fun row => row.migrationId = t.migrationId b.settings.marker content) =
        some tag)
      (hheld : s'.holdings = s.holdings) :
      Tracked b s t content (.ok tag) s'
  | made {rows : List MasterTag} {tag : MasterTag} {s' : Store} (hlater : s.supply.Later s'.supply)
      (hopen : s'.isOpen = true) (hrows : s.stored.masterTags = .ok rows)
      (hnew : ∀ row ∈ rows, row.migrationId ≠ t.migrationId b.settings.marker content)
      (htemplate : tag.templateId = t.id) (hcontent : tag.content = content)
      (hid : tag.migrationId = t.migrationId b.settings.marker content)
      (hrestrictions : tag.restrictions = Restrictions.none)
      (hstored : s'.stored = { s.stored with masterTags := .ok (rows ++ [tag]) })
      (hheld : s'.holdings = s.holdings ∨
        s'.Works ∧ s'.holdings = s.holdings.withMasterTags (rows ++ [tag])) :
      Tracked b s t content (.ok tag) s'

/-- Looking for a master tag finds the first one that is held under the identifier. -/
theorem of_masterTag? {id : String} {r : Result (Option MasterTag)} (hshown : s.seen = s.stored)
    (h : (Store.masterTag? id).run s = (r, s')) :
    s.Alike s' ∧ r = s.stored.masterTags.map fun rows => rows.find? fun t => t.migrationId = id := by
  obtain ⟨s₁, halike, hrun⟩ := Store.run_masterTag? id s
  rw [hrun, hshown] at h
  obtain ⟨rfl, rfl⟩ := Prod.mk.inj h
  exact ⟨halike, rfl⟩

theorem isOpen_of_masterTag {rows : List MasterTag} {tag : MasterTag} (hshown : s.seen = s.stored)
    (hrows : s.stored.masterTags = .ok rows) (htag : tag ∈ rows) : s.isOpen = true :=
  Store.isOpen_of_shown (g := Stored.masterTags) rfl (by rw [hshown, hrows]) htag

theorem tracked {t : Template} {content : ContentKey} {r : Result MasterTag} (hready : s.Ready)
    (h : (trackedMasterTag b t content).run s = (r, s')) : Tracked b s t content r s' := by
  rw [trackedMasterTag] at h
  have hkept : ∀ {found : Result (Option MasterTag)} {s₁ : Store},
      (Store.masterTag? (t.migrationId b.settings.marker content)).run s = (found, s₁) →
        s₁.holdings = s.holdings := fun hlook =>
    ((Store.KeptByLooking.masterTag? Store.pristine_masterTagsWith _).of_run hlook
      ⟨hready.clock, rfl⟩).held
  rcases Action.run_bind_ends h with ⟨e, hlook, rfl⟩ | ⟨found, s₁, hlook, h⟩
  · obtain ⟨halike, -⟩ := of_masterTag? hready.shown hlook
    exact .failed (.of_eq halike.supply) (fun hopen => halike.isOpen ▸ hopen) halike.stored
      (hkept hlook)
  · obtain ⟨halike, hfound⟩ := of_masterTag? hready.shown hlook
    obtain ⟨rows, hrows, hfind⟩ := map_eq_ok.1 hfound.symm
    cases found with
    | some tag =>
      obtain ⟨rfl, rfl⟩ := Prod.mk.inj h
      exact .found halike (isOpen_of_masterTag hready.shown hrows (List.mem_of_find?_eq_some hfind))
        hrows hfind (hkept hlook)
    | none =>
      have hnew : ∀ row ∈ rows, row.migrationId ≠ t.migrationId b.settings.marker content :=
        fun row hrow heq => List.find?_eq_none.1 hfind row hrow (decide_eq_true heq)
      simp only at h
      rw [Store.newMasterTag, bind_assoc, Action.run_bind_ok (Store.run_newId _), bind_assoc,
        Action.run_bind_ok (Store.run_now _), pure_bind] at h
      have hclock : s₁.supply.ShowsDates := halike.supply ▸ hready.clock
      have htime : (s₁.afterId.supply.times s₁.afterId.supply.timesUsed).IsDate := hclock _
      have hlater : s.supply.Later s₁.afterId.afterTime.supply := by
        rw [← halike.supply]
        exact (Store.later_afterId s₁).trans (Store.later_afterTime _)
      have hstored₁ : s₁.afterId.afterTime.stored = s.stored := halike.stored
      have hheld₁ : s₁.afterId.afterTime.holdings = s.holdings := (hkept hlook : s₁.holdings = _)
      rcases Action.run_bind_ends h with ⟨e, hsave, rfl⟩ | ⟨_, s₂, hsave, h⟩
      · obtain ⟨hsupply, hopen, hends⟩ := Store.of_saveMasterTag (fun _ => ⟨htime, htime⟩) hsave
        rcases hends with ⟨-, hstored⟩ | ⟨hr, -⟩
        · refine .failed (hsupply ▸ hlater) (fun hopen' => hopen ?_) (hstored.trans hstored₁) ?_
          · show s₁.isOpen = true
            rw [halike.isOpen, hopen']
          · rcases Store.holdings_of_saveMasterTag hsave with hheld | ⟨hr, -⟩
            · exact hheld.trans hheld₁
            · cases hr
        · cases hr
      · obtain ⟨rfl, rfl⟩ := Prod.mk.inj h
        obtain ⟨hsupply, -, hends⟩ := Store.of_saveMasterTag (fun _ => ⟨htime, htime⟩) hsave
        rcases hends with ⟨⟨e, hr⟩, -⟩ | ⟨-, hopen, rows', hrows', hstored⟩
        · cases hr
        · rw [hstored₁, hrows] at hrows'
          obtain rfl := Except.ok.inj hrows'
          have hadded : ∀ tag : MasterTag, Tables.upsert
              (fun row => row.migrationId = t.migrationId b.settings.marker content) tag rows =
                rows ++ [tag] :=
            fun tag => Tables.upsert_of_none fun row hrow => decide_eq_false (hnew row hrow)
          rw [hstored₁, hadded] at hstored
          refine .made (hsupply ▸ hlater) hopen hrows hnew rfl rfl rfl rfl hstored ?_
          rcases Store.holdings_of_saveMasterTag hsave with hheld | ⟨-, hworks, rows', hrows', hheld⟩
          · exact .inl (hheld.trans hheld₁)
          · rw [hstored₁, hrows] at hrows'
            obtain rfl := Except.ok.inj hrows'
            exact .inr ⟨hworks, by rw [hheld, hadded, hheld₁]⟩

/-! ## The whole sync -/

/-- What a sync has found before it writes a copy. -/
structure SyncBegun (b : Rulebook) (s : Store) (id : Uuid) (master : ContentKey)
    (sub : Subscription) (t : Template) (masterTag : MasterTag) (tags : List ChildTag)
    (m : Migration) (s₁ : Store) : Prop where
  kind : master.kind.allowedInBlueprint = true
  subscription : (subscription id).run s = (.ok sub, s)
  template : (template sub.templateId).run s = (.ok t, s)
  tracked : (trackedMasterTag b t master).run s = (.ok masterTag, s₁)
  tags : (Store.childTagsOf sub.id).run s₁ = (.ok tags, s₁)
  load : (Migration.load sub).run s₁ = (.ok m, s₁)

/-- The ends of a sync: a look-up failed; the content could not be tracked; what goes with it could
not be read; a copy was to be made; or the copy that was found first was to be written. -/
inductive SyncEnds (b : Rulebook) (s : Store) (id : Uuid) (master : ContentKey)
    (assignments : List Assignment) : Result Report → Store → Prop
  | stopped {e : Failure} : SyncEnds b s id master assignments (.error e) s
  | untracked {sub : Subscription} {t : Template} {e : Failure} {s₁ : Store}
      (hkind : master.kind.allowedInBlueprint = true)
      (hsub : (subscription id).run s = (.ok sub, s))
      (ht : (template sub.templateId).run s = (.ok t, s))
      (htracked : (trackedMasterTag b t master).run s = (.error e, s₁)) :
      SyncEnds b s id master assignments (.error e) s₁
  | unread {sub : Subscription} {t : Template} {masterTag : MasterTag} {e : Failure} {s₁ : Store}
      (hkind : master.kind.allowedInBlueprint = true)
      (hsub : (subscription id).run s = (.ok sub, s))
      (ht : (template sub.templateId).run s = (.ok t, s))
      (htracked : (trackedMasterTag b t master).run s = (.ok masterTag, s₁))
      (hunread : s₁.seen.childTags = .error e ∨ s₁.seen.masterTags = .error e) :
      SyncEnds b s id master assignments (.error e) s₁
  | copied {sub : Subscription} {t : Template} {masterTag : MasterTag} {tags : List ChildTag}
      {m : Migration} {s₁ s' : Store} {made : Result ChildTag}
      (hbegun : SyncBegun b s id master sub t masterTag tags m s₁)
      (hnone : (tags.find? fun tag =>
        tag.migrationId = some (t.migrationId b.settings.marker master)) = none)
      (hmade : (createCopy b m master.kind (t.migrationId b.settings.marker master)
        assignments).run s₁ = (made, s')) :
      SyncEnds b s id master assignments (made.map fun tag =>
        Report.say { masterTags := [masterTag], childTags := [tag] } .success
          ("Synced " ++ master.text ++ " to course " ++ sub.childCourseId.hyphenated ++ " as " ++
            tag.content.text)) s'
  | resynced {sub : Subscription} {t : Template} {masterTag : MasterTag} {tags : List ChildTag}
      {m : Migration} {s₁ s' : Store} {existing : ChildTag}
      {saved : Result (SaveReport × Item)}
      (hbegun : SyncBegun b s id master sub t masterTag tags m s₁)
      (hexisting : (tags.find? fun tag =>
        tag.migrationId = some (t.migrationId b.settings.marker master)) = some existing)
      (hsaved : (saveImported b m (copyWanted existing assignments)).run s₁ = (saved, s')) :
      SyncEnds b s id master assignments (saved.bind fun done =>
        ((s'.seen.childTag? existing.content).bind
          (Result.ofOption (.untracked existing.content))).map fun tag =>
            { masterTags := [masterTag], childTags := [tag], save := some done.1,
              messages := [resyncMessage
                (existing.content.text ++ " in course " ++ sub.childCourseId.hyphenated)
                (keptColumns (requestedColumns existing assignments) done.2)
                done.1.reconciliation] }) s'

theorem sync_ends {id : Uuid} {master : ContentKey} {assignments : List Assignment}
    {r : Result Report} (h : (sync b id master assignments).run s = (r, s')) :
    SyncEnds b s id master assignments r s' := by
  unfold sync at h
  split at h
  · obtain ⟨rfl, rfl⟩ := Prod.mk.inj h
    exact .stopped
  · next hkind =>
    have hkind : master.kind.allowedInBlueprint = true := by simpa using hkind
    simp only at h
    rcases Action.run_bind_ends h with ⟨e, hsub, rfl⟩ | ⟨sub, s₁, hsub, h⟩
    · rw [run_subscription] at hsub
      obtain ⟨-, rfl⟩ := Prod.mk.inj hsub
      exact .stopped
    obtain ⟨rfl, -⟩ := of_subscription hsub
    rcases Action.run_bind_ends h with ⟨e, ht, rfl⟩ | ⟨t, s₁, ht, h⟩
    · rw [run_template] at ht
      obtain ⟨-, rfl⟩ := Prod.mk.inj ht
      exact .stopped
    obtain ⟨rfl, -⟩ := of_template ht
    rcases Action.run_bind_ends h with ⟨e, htracked, rfl⟩ | ⟨masterTag, s₁, htracked, h⟩
    · exact .untracked hkind hsub ht htracked
    rcases Action.run_bind_ends h with ⟨e, htags, rfl⟩ | ⟨tags, s₂, htags, h⟩
    · rw [run_childTagsOf] at htags
      obtain ⟨hrows, rfl⟩ := Prod.mk.inj htags
      exact .unread hkind hsub ht htracked (.inl (map_eq_error.1 hrows))
    obtain ⟨rfl, -⟩ := of_childTagsOf htags
    rcases Action.run_bind_ends h with ⟨e, hload, rfl⟩ | ⟨m, s₂, hload, h⟩
    · rw [run_load] at hload
      obtain ⟨hrows, rfl⟩ := Prod.mk.inj hload
      exact .unread hkind hsub ht htracked (.inr (map_eq_error.1 (map_eq_error.1 hrows)))
    obtain ⟨rfl, -⟩ := of_load hload
    have hbegun : SyncBegun b s id master sub t masterTag tags m s₁ :=
      ⟨hkind, hsub, ht, htracked, htags, hload⟩
    cases hexisting : tags.find? fun tag =>
        tag.migrationId = some (t.migrationId b.settings.marker master) with
    | none =>
      rw [hexisting] at h
      rcases Action.run_bind_ends h with ⟨e, hmade, rfl⟩ | ⟨tag, s₂, hmade, h⟩
      · have hcopied := SyncEnds.copied hbegun hexisting hmade
        exact hcopied
      · obtain ⟨rfl, rfl⟩ := Prod.mk.inj h
        have hcopied := SyncEnds.copied hbegun hexisting hmade
        exact hcopied
    | some existing =>
      rw [hexisting] at h
      rcases Action.run_bind_ends h with ⟨e, hsaved, rfl⟩ | ⟨done, s₂, hsaved, h⟩
      · have hresynced := SyncEnds.resynced hbegun hexisting hsaved
        exact hresynced
      · rw [Action.run_read (run_savedTag existing.content s₂)] at h
        obtain ⟨rfl, rfl⟩ := Prod.mk.inj h
        have hresynced := SyncEnds.resynced hbegun hexisting hsaved
        exact hresynced

/-- A sync that has begun and found a copy is what becomes of the import of the copy. -/
theorem SyncBegun.run_resync {id : Uuid} {master : ContentKey} {assignments : List Assignment}
    {sub : Subscription} {t : Template} {masterTag : MasterTag} {tags : List ChildTag}
    {m : Migration} {s₁ : Store} {existing : ChildTag} {done : SaveReport × Item}
    (h : SyncBegun b s id master sub t masterTag tags m s₁)
    (hexisting : (tags.find? fun tag =>
      tag.migrationId = some (t.migrationId b.settings.marker master)) = some existing)
    (hsaved : (saveImported b m (copyWanted existing assignments)).run s₁ = (.ok done, s')) :
    (sync b id master assignments).run s =
      (((s'.seen.childTag? existing.content).bind
        (Result.ofOption (.untracked existing.content))).map fun tag =>
          { masterTags := [masterTag], childTags := [tag], save := some done.1,
            messages := [resyncMessage
              (existing.content.text ++ " in course " ++ sub.childCourseId.hyphenated)
              (keptColumns (requestedColumns existing assignments) done.2)
              done.1.reconciliation] }, s') := by
  have hallowed : (!master.kind.allowedInBlueprint) = false := by rw [h.kind]; rfl
  rw [sync, hallowed]
  simp only [Bool.false_eq_true, if_false]
  rw [Action.run_bind_ok h.subscription, Action.run_bind_ok h.template,
    Action.run_bind_ok h.tracked, Action.run_bind_ok h.tags, Action.run_bind_ok h.load]
  simp only [hexisting]
  rw [Action.run_bind_ok hsaved]
  exact Action.run_read (run_savedTag existing.content s')

end Command

end CourseBlueprint
