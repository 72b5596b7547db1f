import CourseBlueprint.Proofs.Command.Sync
import CourseBlueprint.Proofs.Tag.MigrationIds

/-!
# Copies that a sync makes

A sync that makes a copy leaves its child tag with the migration identifier of the blueprint content
(`holdsCopy_of_sync`). From then on the store holds the copy, whatever is requested
(`HoldsCopy.evolves`).
-/

namespace CourseBlueprint

/-- The store shows its master tags, and the child tag of a copy under a migration identifier. -/
structure Store.HoldsCopy (s : Store) (content : ContentKey) (migrationId : String) : Prop where
  isOpen : s.isOpen = true
  masterTags : ∃ rows, s.stored.masterTags = .ok rows
  childTag : ∃ tag, s.stored.childTag? content = .ok (some tag) ∧ tag.migrationId = some migrationId

/-- No step loses a copy. -/
theorem Store.HoldsCopy.evolves {s s' : Store} {content : ContentKey} {migrationId : String}
    (h : s.HoldsCopy content migrationId) (hs : s.Evolves s') : s'.HoldsCopy content migrationId := by
  obtain ⟨tag, htag, hid⟩ := h.childTag
  obtain ⟨changes, time, htag'⟩ := hs.steps.childTag? htag
  exact ⟨hs.isOpen h.isOpen, hs.steps.masterTags h.masterTags, _, htag', hid⟩

/-- The template that a subscription follows, as far as the store shows it. -/
def Store.Follows (s : Store) (subscription : Uuid) (t : Template) : Prop :=
  ∃ subscriptions templates sub, s.seen.subscriptions = .ok subscriptions ∧
    (subscriptions.find? fun row => row.id = subscription) = some sub ∧
    s.seen.templates = .ok templates ∧ (templates.find? fun row => row.id = sub.templateId) = some t

theorem Store.Follows.unique {s : Store} {subscription : Uuid} {t t' : Template}
    (h : s.Follows subscription t) (h' : s.Follows subscription t') : t = t' := by
  obtain ⟨_, _, _, hsubscriptions, hsub, htemplates, ht⟩ := h
  obtain ⟨_, _, _, hsubscriptions', hsub', htemplates', ht'⟩ := h'
  rw [hsubscriptions] at hsubscriptions'
  obtain rfl := Except.ok.inj hsubscriptions'
  rw [hsub] at hsub'
  obtain rfl := Option.some.inj hsub'
  rw [htemplates] at htemplates'
  obtain rfl := Except.ok.inj htemplates'
  rw [ht] at ht'
  exact Option.some.inj ht'

theorem Work.run_on_eq_ok {α : Type} {x : Work α} {i : Item} {a : α} {d : Desk} {s s' : Store} :
    (Work.on i x).run s = (.ok (a, d), s') ↔ x.run ⟨s, i, [], []⟩ = (.ok a, d) ∧ s' = d.store := by
  rw [Work.on, Action.run_of]
  constructor
  · intro h
    rcases hrun : x.run ⟨s, i, [], []⟩ with ⟨e | a', d'⟩
    · rw [hrun] at h
      cases h
    · rw [hrun] at h
      obtain ⟨hok, rfl⟩ := Prod.mk.inj h
      obtain ⟨rfl, rfl⟩ := Prod.mk.inj (Except.ok.inj hok)
      exact ⟨rfl, rfl⟩
  · rintro ⟨hrun, rfl⟩
    rw [hrun]

/-- The import of a new copy gives it a child tag. -/
theorem Rulebook.found_of_saved {b : Rulebook} {c : Context} {m : Migration} {write : Persist}
    {d d' : Desk} {report : SaveReport} (hclock : d.store.supply.ShowsDates)
    (hc : c.migration = some m) (hcopy : b.isCopy d.item = true) (hnew : d.item.isNew = true)
    (h : (b.save c write).run d = (.ok (.saved report), d')) :
    ∃ tag, Store.FoundOrCreated d.store m.subscription.id d.item.key d.item.migrationId (.ok tag)
      d'.store := by
  cases stages h with
  | @saved k d₁ reconciliation d₂ merge _ hcheck hprepare hwrite hrecord =>
    rw [run_check_import hc] at hcheck
    cases hcheck
    rw [run_prepare_of_isNew hnew] at hprepare
    cases hprepare
    rw [hnew, record, if_pos rfl, tagCopy, bind_assoc,
      Action.run_bind_ok (Work.run_item d.handOver.applied)] at hrecord
    have hcopy' : b.isCopy d.handOver.applied.item = true := hcopy
    simp only [hc, hcopy', Bool.not_true, Bool.false_eq_true, if_false] at hrecord
    rw [bind_assoc, Action.run_bind_eq_ok] at hrecord
    obtain ⟨tag, d₃, hfound, hpure⟩ := hrecord
    rcases hrun : (Store.findOrCreateChildTag m.subscription.id d.handOver.applied.item.key
      d.handOver.applied.item.migrationId).run d.handOver.applied.store with ⟨r, s⟩
    rw [Work.run_store_of hrun] at hfound
    obtain ⟨rfl, rfl⟩ := Prod.mk.inj hfound
    obtain ⟨-, rfl⟩ := Prod.mk.inj hpure
    exact ⟨tag, Store.findOrCreateChildTag_spec hclock hrun⟩

namespace Command

variable {b : Rulebook} {s s' : Store}

/-! ## Syncing -/

/-- Once the master tag is there the store is open, and the child tags are those there were. -/
theorem of_trackedMasterTag {t : Template} {content : ContentKey} {tag : MasterTag}
    (hclock : s.supply.ShowsDates) (h : (trackedMasterTag b t content).run s = (.ok tag, s')) :
    s.Evolves s' ∧ s'.stored.childTags = s.stored.childTags ∧ s'.isOpen = true ∧
      ∃ rows, s'.stored.masterTags = .ok rows := by
  rw [trackedMasterTag, Action.run_bind_eq_ok] at h
  obtain ⟨found, s₁, hfound, h⟩ := h
  obtain ⟨s₁', halike, hrun⟩ := Store.run_masterTag? (t.migrationId b.settings.marker content) s
  rw [hrun] at hfound
  obtain ⟨hseen, rfl⟩ := Prod.mk.inj hfound
  cases found with
  | some found =>
    obtain ⟨rfl, rfl⟩ := Action.run_pure_eq_ok.1 h
    cases hopen : s.isOpen with
    | false =>
      rw [show s.seen = .of .empty from if_neg (by simp [hopen])] at hseen
      cases hseen
    | true =>
      rw [Store.seen_of_isOpen hopen] at hseen
      cases hrows : s.stored.masterTags with
      | error e => rw [hrows] at hseen; cases hseen
      | ok rows =>
        exact ⟨halike.evolves, by rw [halike.stored], by rw [halike.isOpen, hopen], rows,
          by rw [halike.stored, hrows]⟩
  | none =>
    simp only at h
    rw [Store.newMasterTag, bind_assoc, Action.run_bind_ok (Store.run_newId _), bind_assoc,
      Action.run_bind_ok (Store.run_now _), pure_bind, Action.run_bind_eq_ok] at h
    obtain ⟨_, s₂, hsave, h⟩ := h
    obtain ⟨rfl, rfl⟩ := Action.run_pure_eq_ok.1 h
    have htime : (s₁'.afterId.supply.times s₁'.afterId.supply.timesUsed).IsDate :=
      halike.evolves.supply.showsDates hclock _
    obtain ⟨hevolves, htags, hdone⟩ :=
      Store.evolves_of_saveMasterTag (fun _ => ⟨htime, htime⟩) hsave
    obtain ⟨hopen, hrows⟩ := hdone rfl
    have hbefore : s.Evolves s₁'.afterId.afterTime :=
      halike.evolves.trans (.of_stored_eq ((Store.later_afterId s₁').trans
        (Store.later_afterTime _)) id rfl)
    refine ⟨hbefore.trans hevolves, ?_, hopen, hrows⟩
    rw [htags, ← halike.stored]
    rfl

/-- What a new copy is known by, whatever it is assigned. -/
theorem newCopy_frame (key : ContentKey) (id : String) (assignments : List Assignment) :
    ∃ attributes pending, newCopy key id assignments =
      { Item.new key with migrationId := some id, attributes := attributes, pending := pending } := by
  obtain ⟨attributes, pending, hset⟩ := Item.set_frame
    { Item.new key with migrationId := some id } key.kind.stateColumn (.string Item.activeState)
  obtain ⟨attributes', pending', hall⟩ := Item.setAll_frame assignments
    { Item.new key with migrationId := some id, attributes := attributes, pending := pending }
  refine ⟨attributes', pending', ?_⟩
  show (Item.set _ key.kind.stateColumn _).setAll assignments = _
  rw [hset]
  exact hall

/-- What a sync is to write to a copy, in order. -/
def requests (tag : ChildTag) (assignments : List Assignment) : List Assignment :=
  (if tag.isManuallyDeleted then [(tag.content.kind.stateColumn, .string Item.activeState)]
    else []) ++ assignments

theorem copyWanted_eq (tag : ChildTag) (assignments : List Assignment) :
    copyWanted tag assignments = (copyBefore tag).setAll (requests tag assignments) := by
  rw [copyWanted, requests]
  cases tag.isManuallyDeleted with
  | true => rfl
  | false => rfl

/-- Nothing is known of a copy before a sync but that it was deleted. -/
theorem value_copyBefore (tag : ChildTag) (column : String) :
    (copyBefore tag).value column =
      if tag.isManuallyDeleted = true ∧ column = tag.content.kind.stateColumn then
        .string Item.deletedState
      else .null := by
  rw [copyBefore]
  cases tag.isManuallyDeleted with
  | true =>
    show (Dict.get? (Dict.put _ _ _) _).getD _ = _
    rw [Dict.get?_put]
    by_cases hcolumn : column = tag.content.kind.stateColumn
    · rw [if_pos hcolumn, if_pos ⟨rfl, hcolumn⟩]
      rfl
    · rw [if_neg hcolumn, if_neg fun h => hcolumn h.2]
      rfl
  | false =>
    rw [if_neg (by simp)]
    rfl

/-- What a copy that is written is known by, whatever it is assigned. -/
theorem copyWanted_frame (tag : ChildTag) (assignments : List Assignment) :
    ∃ attributes pending, copyWanted tag assignments =
      { Item.persisted tag.content attributes with
        migrationId := tag.migrationId, pending := pending } := by
  rw [copyWanted_eq]
  exact Item.setAll_frame (requests tag assignments) (copyBefore tag)

theorem key_copyWanted (tag : ChildTag) (assignments : List Assignment) :
    (copyWanted tag assignments).key = tag.content := by
  obtain ⟨attributes, pending, hitem⟩ := copyWanted_frame tag assignments
  rw [hitem]
  rfl

theorem isNew_copyWanted (tag : ChildTag) (assignments : List Assignment) :
    (copyWanted tag assignments).isNew = false := by
  obtain ⟨attributes, pending, hitem⟩ := copyWanted_frame tag assignments
  rw [hitem]
  rfl

theorem isCopy_copyWanted {b : Rulebook} {tag : ChildTag} {id : String}
    (assignments : List Assignment) (hid : tag.migrationId = some id)
    (hmarks : b.settings.marks id = true) : b.isCopy (copyWanted tag assignments) = true := by
  obtain ⟨attributes, pending, hitem⟩ := copyWanted_frame tag assignments
  rw [hitem, Rulebook.isCopy]
  simp [hid, hmarks]

/-- A copy that is saved for the first time has found or created a child tag. -/
theorem foundOrCreated_of_saveImported {m : Migration} {key : ContentKey} {id : String}
    {assignments : List Assignment} {saved : SaveReport × Item} (hclock : s.supply.ShowsDates)
    (hmarks : b.settings.marks id = true)
    (h : (saveImported b m (newCopy key id assignments)).run s = (.ok saved, s')) :
    ∃ tag, Store.FoundOrCreated s m.subscription.id key (some id) (.ok tag) s' := by
  rw [saveImported, Action.run_bind_eq_ok] at h
  obtain ⟨⟨outcome, d⟩, s₂, hon, hsaved⟩ := h
  obtain ⟨hsave, rfl⟩ := Work.run_on_eq_ok.1 hon
  cases outcome with
  | rejected r => cases hsaved
  | saved report =>
    obtain ⟨-, rfl⟩ := Action.run_pure_eq_ok.1 hsaved
    obtain ⟨attributes, pending, hcopy⟩ := newCopy_frame key id assignments
    rw [hcopy] at hsave
    exact Rulebook.found_of_saved (b := b) (c := .importing m) (m := m) hclock rfl (by exact hmarks)
      rfl hsave

/-- A copy that is made has found or created a child tag for the identifier that was drawn. -/
theorem foundOrCreated_of_createCopy {m : Migration} {kind : Kind} {id : String}
    {assignments : List Assignment} {tag : ChildTag} (hclock : s.supply.ShowsDates)
    (hmarks : b.settings.marks id = true)
    (h : (createCopy b m kind id assignments).run s = (.ok tag, s')) :
    Store.FoundOrCreated s.afterId m.subscription.id ⟨kind, s.supply.ids s.supply.idsUsed⟩ (some id)
      (.ok tag) s' := by
  rw [createCopy, Action.run_bind_ok (Store.run_newId s), Action.run_bind_eq_ok] at h
  obtain ⟨saved, s₁, hsaved, h⟩ := h
  obtain ⟨rfl, hseen⟩ := of_savedTag h
  obtain ⟨hopen, hheld⟩ := Store.isOpen_of_seen hseen
  obtain ⟨tag', hfound⟩ :=
    foundOrCreated_of_saveImported ((Store.later_afterId s).showsDates hclock) hmarks hsaved
  -- the tag that the copy is answered with is the one that is held for it
  have hheld' := hfound.held.2
  rw [hheld] at hheld'
  rw [Option.some.inj (Except.ok.inj hheld')]
  exact hfound

/-- A copy that is made has a child tag under the migration identifier that it was made with. -/
theorem of_createCopy {m : Migration} {kind : Kind} {id : String} {assignments : List Assignment}
    {tag : ChildTag} (hclock : s.supply.ShowsDates) (hmarks : b.settings.marks id = true)
    (hnew : s.stored.childTag? tag.content = .ok none)
    (h : (createCopy b m kind id assignments).run s = (.ok tag, s')) :
    tag.content.kind = kind ∧ tag.migrationId = some id ∧ s'.isOpen = true ∧
      s'.stored.childTag? tag.content = .ok (some tag) := by
  have hfound := foundOrCreated_of_createCopy hclock hmarks h
  obtain ⟨hopen, hheld⟩ := hfound.held
  have hkey := Store.content_of_childTag? hheld
  refine ⟨by rw [hkey], ?_, hopen, by rw [hkey]; exact hheld⟩
  -- the child tag is new, since there was none for the content
  rcases hfound.ends with ⟨e, he, -⟩ | ⟨tag, htag, -, -, hstored | ⟨rows, -, -, -, -, hid, -⟩⟩
  · cases he
  · rw [hkey, ← Store.stored_afterId, ← hstored, hheld] at hnew
    cases hnew
  · cases htag
    exact hid

/-- What a sync has found once the master tag is there: the template, and child tags that it may go
on with. -/
structure Prepared (s : Store) (subscriptionId : Uuid) (t : Template) (tags : List ChildTag)
    (s₁ : Store) : Prop where
  follows : s.Follows subscriptionId t
  evolves : s.Evolves s₁
  childTags : s₁.stored.childTags = s.stored.childTags
  isOpen : s₁.isOpen = true
  masterTags : ∃ rows, s₁.stored.masterTags = .ok rows
  tags_held : ∃ rows, s₁.stored.childTags = .ok rows ∧ ∀ tag ∈ tags, tag ∈ rows

/-- A sync that succeeds made a copy and answers its tag, or it answers a tag for the content of one
that there was. -/
theorem of_sync {subscriptionId : Uuid} {master : ContentKey} {assignments : List Assignment}
    {report : Report} (hclock : s.supply.ShowsDates)
    (h : (sync b subscriptionId master assignments).run s = (.ok report, s')) :
    ∃ t tags s₁, Prepared s subscriptionId t tags s₁ ∧
      ((∃ m tag, report.childTags = [tag] ∧
          (createCopy b m master.kind (t.migrationId b.settings.marker master) assignments).run s₁ =
            (.ok tag, s')) ∨
        ∃ existing ∈ tags, ∃ tag, report.childTags = [tag] ∧ tag.content = existing.content) := by
  have hprepared : ∀ {sub t masterTag tags m s₁},
      SyncBegun b s subscriptionId master sub t masterTag tags m s₁ →
        Prepared s subscriptionId t tags s₁ := by
    intro sub t masterTag tags m s₁ hbegun
    obtain ⟨-, subscriptions, hsubscriptions, hsub⟩ := of_subscription hbegun.subscription
    obtain ⟨-, templates, htemplates, ht⟩ := of_template hbegun.template
    obtain ⟨hevolves, hchildTags, hopen, hmasterTags⟩ := of_trackedMasterTag hclock hbegun.tracked
    obtain ⟨-, rows, hrows, hmem⟩ := of_childTagsOf hbegun.tags
    rw [Store.seen_of_isOpen hopen] at hrows
    exact ⟨⟨subscriptions, templates, sub, hsubscriptions, hsub, htemplates, ht⟩, hevolves,
      hchildTags, hopen, hmasterTags, rows, hrows, fun tag htag => ((hmem tag).1 htag).1⟩
  have hends := sync_ends h
  generalize hr : (Except.ok report : Result Report) = r at hends
  cases hends with
  | stopped => cases hr
  | untracked => cases hr
  | unread => cases hr
  | @copied sub t masterTag tags m s₁ _ made hbegun hnone hmade =>
    obtain ⟨tag, rfl, rfl⟩ := map_eq_ok.1 hr.symm
    exact ⟨t, tags, s₁, hprepared hbegun, .inl ⟨m, tag, rfl, hmade⟩⟩
  | @resynced sub t masterTag tags m s₁ _ existing saved hbegun hexisting hsaved =>
    refine ⟨t, tags, s₁, hprepared hbegun, .inr ⟨existing, List.mem_of_find?_eq_some hexisting, ?_⟩⟩
    cases saved with
    | error e => cases hr
    | ok done =>
      obtain ⟨tag, hseen, rfl⟩ := map_eq_ok.1 hr.symm
      exact ⟨tag, rfl, Store.content_of_childTag?
        (Store.isOpen_of_seen (bind_ofOption_eq_ok.1 hseen)).2⟩

/-- A sync that answers the child tag of content that had none has made a copy of that content. -/
theorem holdsCopy_of_sync {subscriptionId : Uuid} {master : ContentKey}
    {assignments : List Assignment} {report : Report} {tag : ChildTag}
    (hclock : s.supply.ShowsDates)
    (h : (sync b subscriptionId master assignments).run s = (.ok report, s'))
    (htag : tag ∈ report.childTags) (hnew : s.stored.childTag? tag.content = .ok none) :
    tag.content.kind = master.kind ∧ ∃ t, s.Follows subscriptionId t ∧
      tag.migrationId = some (t.migrationId b.settings.marker master) ∧
      s'.HoldsCopy tag.content (t.migrationId b.settings.marker master) := by
  obtain ⟨t, tags, s₁, hprepared, hend⟩ := of_sync hclock h
  have hclock₁ : s₁.supply.ShowsDates := hprepared.evolves.supply.showsDates hclock
  have hnew₁ : s₁.stored.childTag? tag.content = .ok none := by
    rw [Stored.childTag?, hprepared.childTags]
    exact hnew
  rcases hend with ⟨m, made, hreport, hmade⟩ | ⟨existing, hexisting, answered, hreport, hcontent⟩
  · rw [hreport] at htag
    obtain rfl : tag = made := List.mem_singleton.1 htag
    obtain ⟨hkind, hid, hopen, hheld⟩ :=
      of_createCopy hclock₁ (b.settings.marks_migrationId t master) hnew₁ hmade
    have hevolves : s₁.Evolves s' := (evolves_createCopy hclock₁ _ _ _ _).of_run hmade (.refl s₁)
    exact ⟨hkind, t, hprepared.follows, hid, hopen,
      hevolves.steps.masterTags hprepared.masterTags, tag, hheld, hid⟩
  · -- a tag for the content of one that there was is not for content without one
    rw [hreport] at htag
    obtain rfl : tag = answered := List.mem_singleton.1 htag
    obtain ⟨rows, hrows, hmem⟩ := hprepared.tags_held
    rw [Store.childTag?_of_rows hrows, hcontent] at hnew₁
    have hnone := List.find?_eq_none.1 (Except.ok.inj hnew₁) existing (hmem existing hexisting)
    exact absurd (decide_eq_true rfl) hnone

end Command

end CourseBlueprint
