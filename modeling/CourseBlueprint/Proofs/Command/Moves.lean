import CourseBlueprint.Proofs.Command.EditLocks
import CourseBlueprint.Proofs.Save.ChildTags

/-!
# Moves that requests make

Every request leads a store that is ready along moves, whether it is answered or fails
(`Request.moves_run`). The masters that its moves tag and copy are those that the request names
(`Request.masters`).
-/

namespace CourseBlueprint

namespace Command

variable {b : Rulebook} {asked : ContentKey → Prop} {s s' s₀ : Store}

/-! ## Saving -/

theorem run_on_ends {α : Type} {x : Work α} {i : Item} {r : Result (α × Desk)}
    (h : (Work.on i x).run s = (r, s')) :
    ∃ r' d, x.run ⟨s, i, [], []⟩ = (r', d) ∧ s' = d.store := by
  rw [Work.on, Action.run_of] at h
  rcases hrun : x.run ⟨s, i, [], []⟩ with ⟨e | a, d⟩
  · rw [hrun] at h
    exact ⟨_, d, rfl, (Prod.mk.inj h).2.symm⟩
  · rw [hrun] at h
    exact ⟨_, d, rfl, (Prod.mk.inj h).2.symm⟩

/-- A save is a move, if the tag that an import may create is one that the rules allow. -/
theorem move_of_save {c : Context} {write : Persist} {i : Item} {r : Result SaveOutcome} {d : Desk}
    (hready : s.Ready) (hopen : s.isOpen = true) (howner : i.tagOwner = i.key)
    (hcreated : ∀ new m rows tag, c.migration = some m → s.stored.childTags = .ok rows →
      Tables.childTagIn rows i.key = none → tag.subscriptionId = m.subscription.id →
      tag.content = i.key → tag.migrationId = i.migrationId → tag.changes = ∅ →
      s.stored.Change b asked new (s.stored.withChildTags (rows ++ [tag])))
    (h : (b.save c write).run ⟨s, i, [], []⟩ = (r, d)) : s.Move b asked d.store := by
  have hevolves : s.Evolves d.store :=
    (Rulebook.evolves_save hready.clock write).of_run h (.refl s)
  refine ⟨hevolves.supply, hevolves.isOpen, ?_⟩
  have hpermits := Rulebook.permits_save (d := ⟨s, i, [], []⟩) hready.clock h
  generalize hst : d.store.stored = st at hpermits ⊢
  cases hpermits with
  | unchanged => exact .inl rfl
  | created hc hcopy hrows hnone hsubscription hcontent hid hchanges =>
    exact .inr ⟨hevolves.isOpen hopen,
      hcreated _ _ _ _ hc hrows hnone hsubscription hcontent hid hchanges⟩
  | removed hc hcontent hoverruled hstored =>
    refine .inr ⟨hevolves.isOpen hopen, .changes (fun x hx => .inl ?_) hstored⟩
    exact (NameSet.mem_diff.1 hx).1
  | @added tag columns _ hc htracked howner' hgoverned hstored =>
    refine .inr ⟨hevolves.isOpen hopen, .changes (fun x hx => ?_) hstored⟩
    have hkind : tag.content.kind = i.key.kind := by
      rw [howner', howner]
    rcases NameSet.mem_union.1 hx with hx | hx
    · exact .inl hx
    · rw [hkind]
      exact .inr (hgoverned x hx)

/-- A save of a copy that has a tag creates none. -/
theorem move_of_save_held {c : Context} {write : Persist} {i : Item} {r : Result SaveOutcome}
    {d : Desk} {tag : ChildTag} (hready : s.Ready) (hopen : s.isOpen = true)
    (howner : i.tagOwner = i.key) (hheld : s.stored.childTag? i.key = .ok (some tag))
    (h : (b.save c write).run ⟨s, i, [], []⟩ = (r, d)) : s.Move b asked d.store := by
  refine move_of_save hready hopen howner ?_ h
  intro new m rows tag' hc hrows hnone
  rw [Store.childTag?_of_rows hrows, hnone] at hheld
  cases hheld

theorem run_saveImported_ends {m : Migration} {i : Item} {r : Result (SaveReport × Item)}
    (h : (saveImported b m i).run s = (r, s')) :
    ∃ r' d, (b.save (.importing m) .noop).run ⟨s, i, [], []⟩ = (r', d) ∧ s' = d.store := by
  rw [saveImported] at h
  rcases Action.run_bind_ends h with ⟨e, hon, -⟩ | ⟨⟨outcome, d⟩, s₁, hon, h⟩
  · exact run_on_ends hon
  · have hsame : s' = s₁ := by
      cases outcome with
      | saved report => exact (Prod.mk.inj h).2.symm
      | rejected rejection => exact (Prod.mk.inj h).2.symm
    rw [hsame]
    exact run_on_ends hon

/-- Making a copy is an import of an item that was never saved, under a new identifier. -/
theorem run_createCopy_ends {m : Migration} {kind : Kind} {id : String}
    {assignments : List Assignment} {made : Result ChildTag}
    (h : (createCopy b m kind id assignments).run s = (made, s')) :
    ∃ attributes pending r d, (b.save (.importing m) .noop).run
      ⟨s.afterId, { Item.new ⟨kind, s.supply.ids s.supply.idsUsed⟩ with
        migrationId := some id, attributes := attributes, pending := pending }, [], []⟩ = (r, d) ∧
      s' = d.store := by
  obtain ⟨attributes, pending, hitem⟩ :=
    newCopy_frame ⟨kind, s.supply.ids s.supply.idsUsed⟩ id assignments
  refine ⟨attributes, pending, ?_⟩
  rw [← hitem]
  rw [createCopy, Action.run_bind_ok (Store.run_newId s)] at h
  rcases Action.run_bind_ends h with ⟨e, hsaved, -⟩ | ⟨done, s₁, hsaved, h⟩
  · exact run_saveImported_ends hsaved
  · rw [run_savedTag] at h
    obtain ⟨-, rfl⟩ := Prod.mk.inj h
    exact run_saveImported_ends hsaved

/-! ## Making blueprints and following them -/

theorem moves_makeBlueprint (hready : s₀.Ready) (course : Uuid) :
    Action.Keeps (s₀.Moves b asked) (makeBlueprint course) := by
  refine .bind (Store.keeps_templateOf? course) fun found => ?_
  split
  · exact .pure _
  · refine .bind (Store.keeps_moves_of_run hready fun s r s' hs h => ?_) fun t => .pure _
    exact (Store.move_findOrCreateTemplate hs.clock h).moves

theorem moves_subscribe (hready : s₀.Ready) (master child : Uuid) :
    Action.Keeps (s₀.Moves b asked) (subscribe master child) := by
  unfold subscribe
  split
  · exact .fail_bind _ _
  · next hother =>
    refine Store.keeps_moves_of_run hready fun s r s' hs h => ?_
    rcases Action.run_bind_ends h with ⟨e, ht, -⟩ | ⟨t, s₁, ht, h⟩
    · exact ((keeps_templateOf (P := s.Alike) master).of_run ht (.refl s)).move.moves
    · obtain ⟨rfl, rows, hrows, hfind⟩ := of_templateOf ht
      have hcourse : t.courseId = master := by simpa using List.find?_some hfind
      have hheld : s.stored.HasTemplate t :=
        ⟨rows, by rw [← hs.shown, hrows], List.mem_of_find?_eq_some hfind⟩
      have hchild : child ≠ t.courseId := by
        rw [hcourse]
        exact fun heq => hother heq.symm
      rcases Action.run_bind_ends h with ⟨e, hfound, -⟩ | ⟨sub, s₁, hfound, h⟩
      · exact (Store.move_findOrCreateSubscription hheld hchild hfound).moves
      · obtain ⟨-, rfl⟩ := Prod.mk.inj h
        exact (Store.move_findOrCreateSubscription hheld hchild hfound).moves

/-! ## Tracking and locking -/

/-- Tracking blueprint content that may belong to a blueprint is a move. -/
theorem Tracked.move {t : Template} {content : ContentKey} {r : Result MasterTag}
    (h : Tracked b s t content r s') (ht : s.stored.HasTemplate t)
    (hkind : content.kind.allowedInBlueprint = true) (hasked : asked content) :
    s.Move b asked s' := by
  cases h with
  | failed hlater hopen hstored => exact .of_stored_eq hlater hopen hstored
  | found halike => exact halike.move
  | @made rows tag _ hlater hopen hrows hnew htemplate hcontent hid hrestrictions hstored =>
    refine ⟨hlater, fun _ => hopen, .inr ⟨hopen, ?_⟩⟩
    rw [hstored]
    refine .masterTag ht htemplate (by rw [hcontent, hid]) (by rw [hcontent, hkind])
      (by rw [hcontent]; exact hasked) hrows fun row hrow => ?_
    rw [hid]
    exact hnew row hrow

/-- Once content is tracked, the store is open and holds a master tag under its identifier; the
templates, the subscriptions and the child tags are those there were. -/
theorem Tracked.of_ok {t : Template} {content : ContentKey} {tag : MasterTag}
    (h : Tracked b s t content (.ok tag) s') :
    s'.isOpen = true ∧ s'.stored.HasMasterTag tag ∧
      tag.migrationId = t.migrationId b.settings.marker content ∧
      s'.stored.templates = s.stored.templates ∧
      s'.stored.subscriptions = s.stored.subscriptions ∧
      s'.stored.childTags = s.stored.childTags := by
  cases h with
  | found halike hopen hrows htag =>
    have hid : tag.migrationId = t.migrationId b.settings.marker content := by
      simpa using List.find?_some htag
    rw [halike.isOpen, halike.stored]
    exact ⟨hopen, ⟨_, hrows, List.mem_of_find?_eq_some htag⟩, hid, rfl, rfl, rfl⟩
  | made hlater hopen hrows hnew htemplate hcontent hid hrestrictions hstored =>
    rw [hstored]
    exact ⟨hopen, ⟨_, rfl, List.mem_append_right _ List.mem_cons_self⟩, hid, rfl, rfl, rfl⟩

/-- The ends of looking up the master tag of content or making one: no row has changed, and the tag
is the first that is held under the identifier, or one for a row that is not there. -/
theorem of_masterTagOrNew {t : Template} {content : ContentKey} {r : Result MasterTag}
    (hready : s.Ready) (h : (masterTagOrNew b t content).run s = (r, s')) :
    s.supply.Later s'.supply ∧ s'.isOpen = s.isOpen ∧ s'.stored = s.stored ∧
      ∀ old, r = .ok old → (s'.directory.isSome = true → old.IsDated) ∧
        ∃ rows found, s.stored.masterTags = .ok rows ∧
          (rows.find? fun row => row.migrationId = t.migrationId b.settings.marker content) = found ∧
          (found = some old ∨ found = none ∧ old.templateId = t.id ∧ old.content = content ∧
            old.migrationId = t.migrationId b.settings.marker content ∧
            old.restrictions = Restrictions.none) := by
  rw [masterTagOrNew] at h
  rcases Action.run_bind_ends h with ⟨e, hlook, rfl⟩ | ⟨found, s₁, hlook, h⟩
  · obtain ⟨halike, -⟩ := of_masterTag? hready.shown hlook
    refine ⟨.of_eq halike.supply, halike.isOpen, halike.stored, ?_⟩
    intro old hold
    cases hold
  · obtain ⟨halike, hfound⟩ := of_masterTag? hready.shown hlook
    obtain ⟨rows, hrows, hfind⟩ := map_eq_ok.1 hfound.symm
    cases found with
    | some tag =>
      obtain ⟨rfl, rfl⟩ := Prod.mk.inj h
      refine ⟨.of_eq halike.supply, halike.isOpen, halike.stored, ?_⟩
      rintro old hold
      obtain rfl := Except.ok.inj hold
      exact ⟨isDated_of_masterTag? hlook, rows, some tag, hrows, hfind, .inl rfl⟩
    | none =>
      simp only at h
      rw [Store.newMasterTag, Action.run_bind_ok (Store.run_newId _),
        Action.run_bind_ok (Store.run_now _)] at h
      obtain ⟨rfl, rfl⟩ := Prod.mk.inj h
      have hclock : s₁.supply.ShowsDates := halike.supply ▸ hready.clock
      have htime : (s₁.afterId.supply.times s₁.afterId.supply.timesUsed).IsDate := hclock _
      have hlater : s.supply.Later s₁.afterId.afterTime.supply := by
        rw [← halike.supply]
        exact (Store.later_afterId s₁).trans (Store.later_afterTime _)
      refine ⟨hlater, halike.isOpen, halike.stored, ?_⟩
      rintro old hold
      obtain rfl := Except.ok.inj hold
      exact ⟨fun _ => ⟨htime, htime⟩, rows, none, hrows, hfind, .inr ⟨rfl, rfl, rfl, rfl, rfl⟩⟩

/-- The ends of setting locks: it failed and changed no row, or the master tag of the content was saved
with them, which is the first that was held under the identifier or a new one. -/
inductive LocksSet (b : Rulebook) (s : Store) (course : Uuid) (content : ContentKey)
    (locks : List Lock) (on : Bool) : Result Report → Store → Prop
  | failed {e : Failure} {s' : Store} (hlater : s.supply.Later s'.supply)
      (hopen : s.isOpen = true → s'.isOpen = true) (hstored : s'.stored = s.stored) :
      LocksSet b s course content locks on (.error e) s'
  | saved {t : Template} {rows : List MasterTag} {found : Option MasterTag} {old : MasterTag}
      {time : Timestamp} {report : Report} {s' : Store} (hlater : s.supply.Later s'.supply)
      (hopen : s'.isOpen = true) (hkind : content.kind.allowedInBlueprint = true)
      (ht : (templateOf course).run s = (.ok t, s)) (hrows : s.stored.masterTags = .ok rows)
      (hfound : (rows.find? fun row =>
        row.migrationId = t.migrationId b.settings.marker content) = found)
      (hold : found = some old ∨ found = none ∧ old.templateId = t.id ∧ old.content = content ∧
        old.migrationId = t.migrationId b.settings.marker content ∧
        old.restrictions = Restrictions.none)
      (hstored : s'.stored = { s.stored with
        masterTags := .ok (Tables.upsert (fun row => row.migrationId = old.migrationId)
          { old with restrictions := locks.foldl (fun r l => r.set l on) old.restrictions
                     updatedAt := time } rows) }) :
      LocksSet b s course content locks on (.ok report) s'

theorem setLocks_ends (hready : s.Ready) {course : Uuid} {content : ContentKey} {locks : List Lock}
    {on : Bool} {r : Result Report}
    (h : (setLocks b course content locks on).run s = (r, s')) :
    LocksSet b s course content locks on r s' := by
  unfold setLocks at h
  simp only at h
  split at h
  · obtain ⟨rfl, rfl⟩ := Prod.mk.inj h
    exact .failed (.refl _) id rfl
  split at h
  · obtain ⟨rfl, rfl⟩ := Prod.mk.inj h
    exact .failed (.refl _) id rfl
  next hkind =>
    have hkind : content.kind.allowedInBlueprint = true := by simpa using hkind
    rcases Action.run_bind_ends h with ⟨e, ht, rfl⟩ | ⟨t, s₁, ht, h⟩
    · rw [run_templateOf] at ht
      obtain ⟨-, rfl⟩ := Prod.mk.inj ht
      exact .failed (.refl _) id rfl
    obtain ⟨rfl, -⟩ := of_templateOf ht
    rcases Action.run_bind_ends h with ⟨e, hold, rfl⟩ | ⟨old, s₁, hold, h⟩
    · obtain ⟨hlater, hopen, hstored, -⟩ := of_masterTagOrNew hready hold
      exact .failed hlater (fun h => hopen ▸ h) hstored
    obtain ⟨hlater, hopen, hstored, hold⟩ := of_masterTagOrNew hready hold
    obtain ⟨hdated, rows, found, hrows, hfound, hold⟩ := hold old rfl
    rw [Action.run_bind_ok (Store.run_now s₁)] at h
    have htime : (s₁.supply.times s₁.supply.timesUsed).IsDate := hlater.showsDates hready.clock _
    have hused : s.supply.Later s₁.afterTime.supply := hlater.trans (Store.later_afterTime s₁)
    have hsaved : s₁.afterTime.directory.isSome = true → MasterTag.IsDated { old with
        restrictions := locks.foldl (fun r l => r.set l on) old.restrictions
        updatedAt := s₁.supply.times s₁.supply.timesUsed } :=
      fun hplace => ⟨(hdated hplace).createdAt, htime⟩
    rcases Action.run_bind_ends h with ⟨e, hsave, rfl⟩ | ⟨_, s₂, hsave, h⟩
    · obtain ⟨hsupply, hopen', hends⟩ := Store.of_saveMasterTag hsaved hsave
      rcases hends with ⟨-, hstored'⟩ | ⟨hr, -⟩
      · exact .failed (hsupply ▸ hused) (fun h => hopen' (hopen.trans h)) (hstored'.trans hstored)
      · cases hr
    · obtain ⟨rfl, rfl⟩ := Prod.mk.inj h
      obtain ⟨hsupply, -, hends⟩ := Store.of_saveMasterTag hsaved hsave
      rcases hends with ⟨⟨e, hr⟩, -⟩ | ⟨-, hopen', rows', hrows', hstored'⟩
      · cases hr
      · have hheld : s₁.afterTime.stored = s.stored := hstored
        rw [hheld, hrows] at hrows'
        obtain rfl := Except.ok.inj hrows'
        rw [hheld] at hstored'
        exact .saved (hsupply ▸ hused) hopen' hkind ht hrows hfound hold hstored'

/-- Saving a master tag that was not there is a move, and so is saving one with other locks. -/
theorem LocksSet.move {course : Uuid} {content : ContentKey} {locks : List Lock} {on : Bool}
    {r : Result Report} (h : LocksSet b s course content locks on r s') (hready : s.Ready)
    (hasked : asked content) : s.Move b asked s' := by
  cases h with
  | failed hlater hopen hstored => exact .of_stored_eq hlater hopen hstored
  | @saved t rows found old time _ _ hlater hopen hkind ht hrows hfound hold hstored =>
    obtain ⟨-, templates, htemplates, hfind⟩ := of_templateOf ht
    have hheld : s.stored.HasTemplate t :=
      ⟨templates, by rw [← hready.shown, htemplates], List.mem_of_find?_eq_some hfind⟩
    refine ⟨hlater, fun _ => hopen, .inr ⟨hopen, ?_⟩⟩
    rw [hstored]
    rcases hold with rfl | ⟨rfl, htemplate, hcontent, hid, -⟩
    · have hid : old.migrationId = t.migrationId b.settings.marker content :=
        by simpa using List.find?_some hfound
      rw [← hid] at hfound
      rw [Tables.upsert_of_find? hfound]
      exact .locks hrows hfound
    · have hnew : ∀ row ∈ rows, row.migrationId ≠ old.migrationId := by
        intro row hrow heq
        rw [hid] at heq
        exact List.find?_eq_none.1 hfound row hrow (decide_eq_true heq)
      rw [Tables.upsert_of_none fun row hrow => decide_eq_false (hnew row hrow)]
      refine .masterTag hheld htemplate ?_ ?_ ?_ hrows hnew
      · show old.migrationId = t.migrationId b.settings.marker old.content
        rw [hcontent, hid]
      · show old.content.kind.allowedInBlueprint = true
        rw [hcontent, hkind]
      · show asked old.content
        rw [hcontent]
        exact hasked

theorem moves_setLocks (hready : s₀.Ready) {course : Uuid} {content : ContentKey} {locks : List Lock}
    {on : Bool} (hasked : asked content) :
    Action.Keeps (s₀.Moves b asked) (setLocks b course content locks on) :=
  Store.keeps_moves_of_run hready fun _ _ _ hs h => ((setLocks_ends hs h).move hs hasked).moves

/-! ## Editing -/

theorem moves_edit (hready : s₀.Ready) (content : ContentKey) (changes : Changes) :
    Action.Keeps (s₀.Moves b asked) (edit b content changes) := by
  refine Store.keeps_moves_of_run hready fun s r s' hs h => ?_
  rw [edit] at h
  rcases Action.run_bind_ends h with ⟨e, htag, -⟩ | ⟨tag, s₁, htag, h⟩
  · exact ((keeps_copyTag (P := s.Alike) content).of_run htag (.refl s)).move.moves
  rw [run_copyTag] at htag
  obtain ⟨hfound, rfl⟩ := Prod.mk.inj htag
  obtain ⟨hopen, hheld⟩ := Store.isOpen_of_seen (bind_ofOption_eq_ok.1 hfound)
  obtain rfl := Store.content_of_childTag? hheld
  obtain ⟨attributes, pending, hitem⟩ := editedItem_frame tag changes
  simp only at h
  split at h
  · obtain ⟨-, rfl⟩ := Prod.mk.inj h
    exact .refl
  · have hsaving : ∀ {c : Context} {done : Result (SaveOutcome × Desk)} {s₂ : Store},
        (Work.on (editedItem tag changes) (b.save c .noop)).run s = (done, s₂) →
          s.Moves b asked s₂ := by
      intro c done s₂ hon
      obtain ⟨saved, d, hsave, rfl⟩ := run_on_ends hon
      rw [hitem] at hsave
      exact (move_of_save_held hs hopen rfl hheld hsave).moves
    rcases Action.run_bind_ends h with ⟨e, hon, -⟩ | ⟨⟨outcome, d⟩, s₂, hon, h⟩
    · exact hsaving hon
    · simp only at h
      rw [Action.run_read (Store.run_childTag? tag.content s₂)] at h
      obtain ⟨-, rfl⟩ := Prod.mk.inj h
      exact hsaving hon

/-! ## Syncing -/

section Begun

variable {id : Uuid} {master : ContentKey} {sub : Subscription} {t : Template} {masterTag : MasterTag}
  {tags : List ChildTag} {m : Migration} {s₁ : Store}

/-- The template that a sync has found is held, and its subscription follows it. -/
theorem of_followed (hshown : s.seen = s.stored) (hsub : (subscription id).run s = (.ok sub, s))
    (ht : (template sub.templateId).run s = (.ok t, s)) :
    s.stored.HasSubscription sub ∧ s.stored.HasTemplate t ∧ t.id = sub.templateId := by
  obtain ⟨-, subscriptions, hsubscriptions, hfindSub⟩ := of_subscription hsub
  obtain ⟨-, templates, htemplates, hfind⟩ := of_template ht
  rw [hshown] at hsubscriptions htemplates
  refine ⟨⟨subscriptions, hsubscriptions, List.mem_of_find?_eq_some hfindSub⟩,
    ⟨templates, htemplates, List.mem_of_find?_eq_some hfind⟩, ?_⟩
  simpa using List.find?_some hfind

/-- The child tags that a sync has found are those of its subscription that are held. -/
theorem SyncBegun.mem_tags (h : SyncBegun b s id master sub t masterTag tags m s₁)
    (hshown : s₁.seen = s₁.stored) : ∃ rows, s₁.stored.childTags = .ok rows ∧
      ∀ tag, tag ∈ tags ↔ tag ∈ rows ∧ tag.subscriptionId = sub.id := by
  obtain ⟨-, rows, hrows, hmem⟩ := of_childTagsOf h.tags
  rw [hshown] at hrows
  exact ⟨rows, hrows, hmem⟩

/-- A copy that is made where the sync has found none under the migration identifier. -/
theorem moves_createCopy {assignments : List Assignment} {made : Result ChildTag}
    (hready : s.Ready) (hasked : asked master)
    (hbegun : SyncBegun b s id master sub t masterTag tags m s₁)
    (hnone : (tags.find? fun tag =>
      tag.migrationId = some (t.migrationId b.settings.marker master)) = none)
    (h : (createCopy b m master.kind (t.migrationId b.settings.marker master) assignments).run s₁ =
      (made, s')) : s.Moves b asked s' := by
  obtain ⟨hsub, ht, hfollows⟩ := of_followed hready.shown hbegun.subscription hbegun.template
  have htracking := tracked hready hbegun.tracked
  have htracked : s.Move b asked s₁ := htracking.move ht hbegun.kind hasked
  have hready₁ : s₁.Ready := htracked.ready hready
  obtain ⟨hopen, hmaster, hmasterId, htemplates, hsubscriptions, -⟩ := htracking.of_ok
  obtain ⟨rows, hrows, hmem⟩ := hbegun.mem_tags hready₁.shown
  have hdrawn : s₁.Move b asked s₁.afterId := .of_stored_eq (Store.later_afterId s₁) (fun h => h) rfl
  have hsubscription : m.subscription = sub := (of_load hbegun.load).2
  obtain ⟨attributes, pending, outcome, d, hsave, rfl⟩ := run_createCopy_ends h
  refine (htracked.moves.tail hdrawn).tail ?_
  refine move_of_save (hdrawn.ready hready₁) hopen rfl ?_ hsave
  intro new m' rows' tag hm hrows' hfree htagSub hcontent hid hchanges
  obtain rfl := Option.some.inj hm
  rw [Store.stored_afterId, hrows] at hrows'
  obtain rfl := Except.ok.inj hrows'
  rw [hsubscription] at htagSub
  have hsub₁ : s₁.stored.HasSubscription sub := by
    obtain ⟨subscriptions, hheld, hin⟩ := hsub
    exact ⟨subscriptions, hsubscriptions.trans hheld, hin⟩
  have ht₁ : s₁.stored.HasTemplate t := by
    obtain ⟨templates, hheld, hin⟩ := ht
    exact ⟨templates, htemplates.trans hheld, hin⟩
  refine .copy hsub₁ ht₁ hfollows hasked hmaster hmasterId hid ?_ htagSub hchanges hrows ?_ ?_
  · rw [hcontent]
    rfl
  · intro row hrow heq
    rw [hcontent] at heq
    exact List.find?_eq_none.1 hfree row hrow (decide_eq_true heq)
  · intro row hrow hours heq
    have hfound := (hmem row).2 ⟨hrow, hours⟩
    rw [hid] at heq
    exact List.find?_eq_none.1 hnone row hfound (decide_eq_true heq)

/-- A copy that the sync has found is written. -/
theorem moves_resync {assignments : List Assignment} {existing : ChildTag}
    {saved : Result (SaveReport × Item)} (hready : s.Ready) (hasked : asked master)
    (hbegun : SyncBegun b s id master sub t masterTag tags m s₁) (hexisting : existing ∈ tags)
    (h : (saveImported b m (copyWanted existing assignments)).run s₁ = (saved, s')) :
    s.Moves b asked s' := by
  obtain ⟨-, ht, -⟩ := of_followed hready.shown hbegun.subscription hbegun.template
  have htracking := tracked hready hbegun.tracked
  have htracked : s.Move b asked s₁ := htracking.move ht hbegun.kind hasked
  have hready₁ : s₁.Ready := htracked.ready hready
  obtain ⟨hopen, -⟩ := htracking.of_ok
  obtain ⟨rows, hrows, hmem⟩ := hbegun.mem_tags hready₁.shown
  have hsome : (Tables.childTagIn rows existing.content).isSome = true :=
    List.find?_isSome.2 ⟨existing, ((hmem existing).1 hexisting).1, by simp⟩
  obtain ⟨tag, htag⟩ := Option.isSome_iff_exists.1 hsome
  have hheld : s₁.stored.childTag? existing.content = .ok (some tag) := by
    rw [Store.childTag?_of_rows hrows, htag]
  obtain ⟨outcome, d, hsave, rfl⟩ := run_saveImported_ends h
  obtain ⟨attributes, pending, hitem⟩ := copyWanted_frame existing assignments
  rw [hitem] at hsave
  exact htracked.moves.tail (move_of_save_held hready₁ hopen rfl hheld hsave)

end Begun

theorem moves_sync (hready : s₀.Ready) {id : Uuid} {master : ContentKey}
    {assignments : List Assignment} (hasked : asked master) :
    Action.Keeps (s₀.Moves b asked) (sync b id master assignments) := by
  refine Store.keeps_moves_of_run hready fun s r s' hs h => ?_
  cases sync_ends h with
  | stopped => exact .refl
  | untracked hkind hsub ht htracked =>
    exact ((tracked hs htracked).move (of_followed hs.shown hsub ht).2.1 hkind hasked).moves
  | unread hkind hsub ht htracked =>
    exact ((tracked hs htracked).move (of_followed hs.shown hsub ht).2.1 hkind hasked).moves
  | copied hbegun hnone hmade => exact moves_createCopy hs hasked hbegun hnone hmade
  | resynced hbegun hexisting hsaved =>
    exact moves_resync hs hasked hbegun (List.mem_of_find?_eq_some hexisting) hsaved

end Command

namespace Request

variable {b : Rulebook} {asked : ContentKey → Prop} {s₀ : Store}

/-- The blueprint content that a request may tag. -/
def masters : Request → List ContentKey
  | sync _ master _ => [master]
  | setLocks _ content _ _ => [content]
  | _ => []

/-- A request leads the store along moves, whether it is answered or fails. -/
theorem moves_run (hready : s₀.Ready) (r : Request) (hasked : ∀ k ∈ r.masters, asked k) :
    Action.Keeps (s₀.Moves b asked) (r.run b) := by
  cases r with
  | makeBlueprint course => exact Command.moves_makeBlueprint hready course
  | subscribe master child => exact Command.moves_subscribe hready master child
  | sync subscription master assignments =>
    have hmaster : asked master := hasked master List.mem_cons_self
    exact .bind (.liftM _) fun assignments => Command.moves_sync hready hmaster
  | setLocks course content locks on =>
    have hcontent : asked content := hasked content List.mem_cons_self
    exact Command.moves_setLocks hready hcontent
  | showContent course content =>
    exact Command.keeps_showContent Store.moves_masterTagsWith course content
  | inspect content => exact Command.keeps_inspect Store.moves_masterTagsWith content
  | edit content assignments delete system =>
    exact .bind (.liftM _) fun assignments => Command.moves_edit hready content _
  | status subscription =>
    exact Command.keeps_status subscription
  | preview content => exact Command.keeps_preview Store.moves_masterTagsWith content
  | listSchemas kind? => exact .pure _
  | showConfig => exact .pure _

end Request

end CourseBlueprint
