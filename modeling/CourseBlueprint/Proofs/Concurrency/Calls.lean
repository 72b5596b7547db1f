import CourseBlueprint.Proofs.Concurrency.Commands
import CourseBlueprint.Proofs.Concurrency.View
import CourseBlueprint.Proofs.Save.LockQueries

/-!
# What the calls of a command do to tables

A store `Serves` tables if writing works, all of them can be read, and look-ups by key are unique. Then
every call of a command succeeds: a look-up answers what the tables say, and a call that writes leaves
tables of which the view is known. Either way the tables go `Onward`: no template, subscription or copy
is lost, and no copy has more changes recorded than before.
-/

namespace CourseBlueprint

/-! ## Drawing identifiers -/

namespace Store

/-- Whether an action draws `k` identifiers at most. -/
def Draws {α : Type} (k : Nat) (x : Action Store α) : Prop :=
  ∀ s, (x.run s).2.supply.idsUsed ≤ s.supply.idsUsed + k

section Draws

variable {α β : Type} {j k : Nat} {x : Action Store α}

theorem Draws.bind {f : α → Action Store β} (hx : Draws j x) (hf : ∀ a, Draws k (f a)) :
    Draws (j + k) (x >>= f) := by
  intro s
  have hfirst := hx s
  rw [Action.run_bind]
  rcases hrun : x.run s with ⟨e | a, s₁⟩
  · rw [hrun] at hfirst
    exact hfirst.trans (by omega)
  · rw [hrun] at hfirst
    have hthen := hf a s₁
    simp only at hfirst ⊢
    omega

theorem Draws.next {f : α → Action Store β} (hx : Draws 0 x) (hf : ∀ a, Draws k (f a)) :
    Draws k (x >>= f) := by
  have hboth := hx.bind hf
  rwa [Nat.zero_add] at hboth

theorem draws_pure (a : α) : Draws k (pure a : Action Store α) := fun _ => Nat.le_add_right _ _

theorem draws_newId : Draws 1 newId := fun _ => le_rfl

theorem draws_now : Draws 0 now := fun _ => le_rfl

theorem draws_onPlace (x : Action Memory α) (y : Action Directory α) : Draws 0 (onPlace x y) := by
  rintro ⟨_ | _, p⟩
  · exact le_rfl
  · exact le_rfl

/-- The tag of a copy is one identifier. -/
theorem draws_findOrCreateChildTag (subscription : Uuid) (content : ContentKey)
    (migrationId : Option String) :
    Draws 1 (findOrCreateChildTag subscription content migrationId) := by
  unfold findOrCreateChildTag
  refine .next (draws_onPlace _ _) fun found => ?_
  cases found with
  | some tag => exact draws_pure tag
  | none => exact draws_newId.bind fun _ => draws_now.next fun _ => draws_onPlace _ _

theorem draws_removeChanges (content : ContentKey) (columns : NameSet) :
    Draws 0 (removeChanges content columns) := by
  unfold removeChanges updateChildTag
  exact .next (draws_now.next fun _ => draws_onPlace _ _) fun _ => draws_pure _

end Draws

end Store

/-! ## Tables that go on -/

/-- The next `n` identifiers to be drawn are all different and not in use. -/
structure Supply.Spares (p : Supply) (n : Nat) (used : List Uuid) : Prop where
  distinct : ∀ i j, p.idsUsed ≤ i → i < p.idsUsed + n → p.idsUsed ≤ j → j < p.idsUsed + n →
    p.ids i = p.ids j → i = j
  unused : ∀ i, p.idsUsed ≤ i → i < p.idsUsed + n → p.ids i ∉ used

/-- What locking and syncing leave of tables: the templates, the subscriptions, and each copy with no
more changes recorded than there were. -/
structure Tables.Onward (ts ts' : Tables) : Prop where
  templates : ts'.templates = ts.templates
  subscriptions : ts'.subscriptions = ts.subscriptions
  copies : ∀ c ∈ ts.childTags, ∃ c' ∈ ts'.childTags, c'.content = c.content ∧
    c'.subscriptionId = c.subscriptionId ∧ c'.migrationId = c.migrationId ∧
    ∀ x ∈ c'.changes, x ∈ c.changes

namespace Tables.Onward

variable {ts ts' ts'' : Tables}

theorem refl (ts : Tables) : ts.Onward ts :=
  ⟨rfl, rfl, fun c hc => ⟨c, hc, rfl, rfl, rfl, fun _ hx => hx⟩⟩

theorem trans (h : ts.Onward ts') (h' : ts'.Onward ts'') : ts.Onward ts'' := by
  refine ⟨h'.templates.trans h.templates, h'.subscriptions.trans h.subscriptions, fun c hc => ?_⟩
  obtain ⟨c', hc', hcontent, hsubscription, hid, hchanges⟩ := h.copies c hc
  obtain ⟨c'', hc'', hcontent', hsubscription', hid', hchanges'⟩ := h'.copies c' hc'
  exact ⟨c'', hc'', hcontent'.trans hcontent, hsubscription'.trans hsubscription, hid'.trans hid,
    fun x hx => hchanges x (hchanges' x hx)⟩

/-- No copy is lost by other master tags. -/
theorem of_masterTags (ts : Tables) (rows : List MasterTag) :
    ts.Onward { ts with masterTags := rows } :=
  ⟨rfl, rfl, fun c hc => ⟨c, hc, rfl, rfl, rfl, fun _ hx => hx⟩⟩

/-- No copy is lost where changes are removed from one. -/
theorem of_putChildTag {c : ChildTag} {changes : NameSet} (time : Timestamp)
    (hcontents : (ts.childTags.map ChildTag.content).Nodup) (hc : c ∈ ts.childTags)
    (hless : ∀ x ∈ changes, x ∈ c.changes) :
    ts.Onward (ts.putChildTag (c.withChanges changes time)) := by
  refine ⟨rfl, rfl, fun c' hc' => ?_⟩
  have hmem : (if c'.content = c.content then c.withChanges changes time else c') ∈
      (ts.putChildTag (c.withChanges changes time)).childTags := by
    have hrows : (ts.putChildTag (c.withChanges changes time)).childTags.map (fun c => c) =
        ts.childTags.map fun c' =>
          if c'.content = c.content then c.withChanges changes time else c' :=
      Tables.map_replaceFirst_of_nodup hcontents
    rw [List.map_id'] at hrows
    rw [hrows]
    exact List.mem_map_of_mem hc'
  by_cases hsame : c'.content = c.content
  · obtain rfl := Tables.eq_of_nodup_map hcontents hc' hc hsame
    rw [if_pos rfl] at hmem
    exact ⟨_, hmem, rfl, rfl, rfl, hless⟩
  · rw [if_neg hsame] at hmem
    exact ⟨c', hmem, rfl, rfl, rfl, fun _ hx => hx⟩

end Tables.Onward

/-- A store that works and holds tables with unique keys, from which `n` more identifiers can be drawn.
Of the content of the copies some is known. -/
structure Store.Serves (b : Rulebook) (known : List ContentKey) (n : Nat) (s : Store) (ts : Tables) :
    Prop where
  holds : s.Holds ⟨s.supply, ts⟩
  clock : s.supply.ShowsDates
  keyed : ts.Keyed b
  oneCopy : (ts.childTags.map fun c => (c.subscriptionId, c.migrationId)).Nodup
  known : ∀ k ∈ known, ∃ c ∈ ts.childTags, c.content = k
  spares : s.supply.Spares n (ts.childTags.map fun c => c.content.id)

/-- The subject of the master tag of content of a template. -/
def Template.subject (t : Template) (marker : String) (content : ContentKey) : Subject :=
  ⟨t.id, content, t.migrationId marker content⟩

/-- A master tag that can be saved as that of a subject, with the locks that are held changed. -/
structure MasterTag.Relocks (b : Rulebook) (known : List ContentKey) (s : Store) (ts : Tables)
    (k : Subject) (f : Restrictions → Restrictions) (tag : MasterTag) : Prop where
  dated : s.directory.isSome = true → tag.IsDated
  derived : ∃ t ∈ ts.templates, t.id = tag.templateId ∧
    tag.migrationId = t.migrationId b.settings.marker tag.content
  migrationId : tag.migrationId = k.migrationId
  bare : tag.bare = ⟨(ts.view known).holder k, f ((ts.view known).locks k.migrationId)⟩

namespace Store.Serves

variable {b : Rulebook} {known : List ContentKey} {n n' : Nat} {s s' : Store} {ts ts' : Tables}

/-- Of the tables that are served all can be read. -/
theorem granted (h : s.Serves b known n ts) {basis : Tables → Bool}
    (hbasis : s.stored.grants basis = true) : basis ts = true := by
  rw [h.holds.stored] at hbasis
  exact hbasis

/-! ## Looking up -/

theorem run_templateOf? (h : s.Serves b known n ts) (course : Uuid) :
    (Store.templateOf? course).run s =
      (.ok (ts.templates.find? fun t => t.courseId = course), s) := by
  rw [Store.run_templateOf?, h.holds.seen]
  rfl

theorem run_template? (h : s.Serves b known n ts) (id : Uuid) :
    (Store.template? id).run s = (.ok (ts.templates.find? fun t => t.id = id), s) := by
  rw [Store.run_template?, h.holds.seen]
  rfl

theorem run_subscription? (h : s.Serves b known n ts) (id : Uuid) :
    (Store.subscription? id).run s = (.ok (ts.subscriptions.find? fun t => t.id = id), s) := by
  rw [Store.run_subscription?, h.holds.seen]
  rfl

theorem run_childTag? (h : s.Serves b known n ts) (content : ContentKey) :
    (Store.childTag? content).run s = (.ok (Tables.childTagIn ts.childTags content), s) := by
  rw [Store.run_childTag?, h.holds.seen]
  rfl

theorem run_childTagsOf (h : s.Serves b known n ts) (subscription : Uuid) :
    ∃ tags, (Store.childTagsOf subscription).run s = (.ok tags, s) ∧
      ∀ tag, tag ∈ tags ↔ tag ∈ ts.childTags ∧ tag.subscriptionId = subscription := by
  rw [Command.run_childTagsOf, h.holds.seen]
  refine ⟨_, rfl, fun tag => ?_⟩
  rw [List.mem_mergeSort, List.mem_filter, decide_eq_true_eq]

theorem good (h : s.Serves b known n ts) : Contents.Good ⟨s.supply, ts⟩ :=
  ⟨h.clock, h.keyed.migrationIds⟩

theorem run_masterTag? (h : s.Serves b known n ts) (id : String) :
    ∃ s', (Store.masterTag? id).run s = (.ok (ts.masterTag? id), s') ∧ s'.Serves b known n ts := by
  obtain ⟨tags, s', hrun, hs', htags⟩ := h.holds.run_masterTagsWith h.good [id]
  refine ⟨s', ?_, ?_⟩
  · rw [Store.masterTag?, Action.run_bind_ok hrun, Action.run_pure,
      htags.head?_eq h.keyed.migrationIds]
    rfl
  · have hsupply : s'.supply = s.supply := hs'.supply
    exact ⟨hsupply ▸ hs', hsupply ▸ h.clock, h.keyed, h.oneCopy, h.known, hsupply ▸ h.spares⟩

theorem locks_view (known : List ContentKey) (ts : Tables) (id : String) :
    (ts.view known).locks id = MasterTag.locksUnder ts.masterTags id := by
  unfold View.locks Tables.view MasterTag.locksUnder
  simp only
  cases ts.masterTags.find? fun t => t.migrationId = id with
  | none => rfl
  | some tag => rfl

/-- The locks that a migration has loaded are those of the content in the template that the subscription
follows. -/
theorem run_load (h : s.Serves b known n ts) {sub : Subscription} {t : Template}
    (hfollows : t.id = sub.templateId) (content : ContentKey) :
    ∃ m, (Migration.load sub).run s = (.ok m, s) ∧ m.subscription = sub ∧
      (m.find? (t.migrationId b.settings.marker content)).getD .none =
        (ts.view known).locks (t.migrationId b.settings.marker content) := by
  have hrows : s.seen.masterTags = .ok ts.masterTags := by rw [h.holds.seen]; rfl
  have hours : ∀ row ∈ ts.masterTags, row.migrationId = t.migrationId b.settings.marker content →
      row.templateId = sub.templateId := by
    intro row hrow hid
    obtain ⟨t', -, htemplate, hderived⟩ := h.keyed.derived row hrow
    obtain ⟨hsame, -⟩ := Template.migrationId_inj (hderived.symm.trans hid)
    rw [← htemplate, hsame, hfollows]
  obtain ⟨m, hrun, hlocks⟩ :=
    Command.find?_of_load_of_template hrows h.keyed.migrationIds hours
  exact ⟨m, hrun, (Command.of_load hrun).2, by rw [hlocks, locks_view]⟩

/-! ## Writing -/

/-- A store goes on to serve tables if they have unique keys, and no content but what was there or was
drawn. -/
theorem next (h : s.Serves b known n ts) (hholds : s'.Holds ⟨s'.supply, ts'⟩)
    (hlater : s.supply.Later s'.supply) (hdraws : s'.supply.idsUsed + n' ≤ s.supply.idsUsed + n)
    (honward : ts.Onward ts') (hkeyed : ts'.Keyed b)
    (honce : (ts'.childTags.map fun c => (c.subscriptionId, c.migrationId)).Nodup)
    (hused : ∀ c ∈ ts'.childTags, (∃ c' ∈ ts.childTags, c'.content = c.content) ∨
      s.supply.Drew s'.supply c.content.id) : s'.Serves b known n' ts' where
  holds := hholds
  clock := hlater.showsDates h.clock
  keyed := hkeyed
  oneCopy := honce
  known := fun k hk => by
    obtain ⟨c, hc, rfl⟩ := h.known k hk
    obtain ⟨c', hc', hcontent, -⟩ := honward.copies c hc
    exact ⟨c', hc', hcontent⟩
  spares := by
    have hlow := hlater.idsUsed
    refine ⟨fun i j hi hi' hj hj' => ?_, fun i hi hi' hmem => ?_⟩
    · rw [hlater.ids]
      exact h.spares.distinct i j (by omega) (by omega) (by omega) (by omega)
    · obtain ⟨c, hc, hid⟩ := List.mem_map.1 hmem
      rw [hlater.ids] at hid
      rcases hused c hc with ⟨c', hc', hcontent⟩ | ⟨j, hj, hj', hdrawn⟩
      · refine h.spares.unused i (by omega) (by omega) (List.mem_map.2 ⟨c', hc', ?_⟩)
        rw [hcontent, hid]
      · have hsame := h.spares.distinct i j (by omega) (by omega) hj (by omega)
          (hid.symm.trans hdrawn.symm)
        omega

/-- A store from which fewer identifiers are drawn. -/
theorem mono (h : s.Serves b known n ts) (hle : n' ≤ n) : s.Serves b known n' ts :=
  { h with spares :=
    { distinct := fun i j hi hi' hj hj' =>
        h.spares.distinct i j hi (by omega) hj (by omega)
      unused := fun i hi hi' => h.spares.unused i hi (by omega) } }

/-- The times of the master tags that are held are ones that can be written again. -/
theorem isDated (h : s.Serves b known n ts) (hplace : s.directory.isSome = true) {tag : MasterTag}
    (htag : tag ∈ ts.masterTags) : tag.IsDated := by
  have hstored := congrArg Stored.masterTags h.holds.stored
  obtain ⟨m | d, p⟩ := s
  · cases hplace
  · exact Directory.good_of_stored Directory.masterTagTable_sound hstored tag htag

/-! ### Master tags -/

/-- Saving a master tag with the locks changed. -/
theorem run_saveMasterTag (h : s.Serves b known n ts) {k : Subject} {f : Restrictions → Restrictions}
    {tag : MasterTag} (htag : tag.Relocks b known s ts k f) :
    ∃ s' ts', (Store.saveMasterTag tag).run s = (.ok (), s') ∧ s'.Serves b known n ts' ∧
      ts.Onward ts' ∧ ts'.view known = (ts.view known).relock k f := by
  obtain ⟨s', hrun, hholds⟩ := h.holds.run_performed
    (fun _ _ hrun => saveMasterTag_performed htag.dated hrun) (masterTagShelf_fits.revise_of _ ts)
  have hsupply : s'.supply = s.supply := hholds.supply
  refine ⟨s', _, hrun, ?_, .of_masterTags ts _, Tables.view_upsert htag.migrationId htag.bare⟩
  refine h.next (hsupply ▸ hholds) (.of_eq hsupply) (by rw [hsupply]) (.of_masterTags ts _) ?_
    h.oneCopy fun c hc => .inl ⟨c, hc, rfl⟩
  exact { h.keyed with
    migrationIds := Tables.nodup_map_upsert h.keyed.migrationIds
    derived := by
      intro row hrow
      rcases Tables.mem_upsert hrow with rfl | hrow
      · exact htag.derived
      · exact h.keyed.derived row hrow }

theorem afterId (h : s.Serves b known (n + 1) ts) : s.afterId.Serves b known n ts :=
  h.next ⟨h.holds.works, h.holds.shown, rfl, h.holds.stored⟩ (later_afterId s)
    (by simp only [Store.afterId]; omega) (.refl ts) h.keyed h.oneCopy fun c hc => .inl ⟨c, hc, rfl⟩

theorem afterTime (h : s.Serves b known n ts) : s.afterTime.Serves b known n ts :=
  h.next ⟨h.holds.works, h.holds.shown, rfl, h.holds.stored⟩ (later_afterTime s) le_rfl (.refl ts)
    h.keyed h.oneCopy fun c hc => .inl ⟨c, hc, rfl⟩

section Saving

variable {t : Template} {content : ContentKey} {key : String}

/-- A new master tag stands for one without locks. -/
theorem run_newMasterTag (h : s.Serves b known (n + 1) ts) (ht : t ∈ ts.templates)
    (hkey : key = t.migrationId b.settings.marker content) (hnone : ts.masterTag? key = none) :
    ∃ tag s', (Store.newMasterTag t content key).run s = (.ok tag, s') ∧ s'.Serves b known n ts ∧
      tag.Relocks b known s' ts ⟨t.id, content, key⟩ fun r => r := by
  refine ⟨_, _, rfl, h.afterId.afterTime, fun _ => ⟨h.clock _, h.clock _⟩, ⟨t, ht, rfl, hkey⟩, rfl, ?_⟩
  have hview : (ts.view known).masters key = none := congrArg (Option.map MasterTag.bare) hnone
  rw [View.holder, View.locks, hview]
  rfl

/-- A master tag that is held stands for itself. -/
theorem relocks_of_held (h : s.Serves b known n ts) {k : Subject} {tag : MasterTag}
    (hheld : ts.masterTag? k.migrationId = some tag) :
    tag.Relocks b known s ts k fun r => r := by
  obtain ⟨hmem, hid⟩ := (Tables.find?_eq_some_iff h.keyed.migrationIds).1 hheld
  obtain ⟨t, ht, hderived⟩ := h.keyed.derived tag hmem
  refine ⟨fun hplace => h.isDated hplace hmem, ⟨t, ht, hderived⟩, hid, ?_⟩
  have hview : (ts.view known).masters k.migrationId = some tag.bare :=
    congrArg (Option.map MasterTag.bare) hheld
  rw [View.holder, View.locks, hview]
  rfl

/-- A master tag is made, if none is held for the content. -/
theorem run_saveNewTag (h : s.Serves b known (n + 1) ts) (ht : t ∈ ts.templates)
    (hkey : key = t.migrationId b.settings.marker content) (hnone : ts.masterTag? key = none) :
    ∃ tag s' ts', (Task.saveNewTag t content key).run s = (.ok tag, s') ∧ s'.Serves b known n ts' ∧
      ts.Onward ts' ∧ ts'.view known = (ts.view known).track ⟨t.id, content, key⟩ := by
  obtain ⟨tag, s₁, hrun, hs₁, htag⟩ := h.run_newMasterTag ht hkey hnone
  obtain ⟨s', ts', hsave, hrest⟩ := hs₁.run_saveMasterTag htag
  refine ⟨tag, s', ts', ?_, hrest⟩
  rw [Task.saveNewTag, Action.run_bind_ok hrun, Action.run_bind_ok hsave]
  rfl

/-- Locks are set on the master tag that a look-up has found or on a new one, if the look-up would still
answer the same. -/
theorem run_saveLocks (h : s.Serves b known (n + 1) ts) (ht : t ∈ ts.templates)
    (hkey : key = t.migrationId b.settings.marker content) (locks : List Lock) (on : Bool) :
    ∃ tag s' ts', (Task.saveLocks t content key locks on (ts.masterTag? key)).run s = (.ok tag, s') ∧
      s'.Serves b known n ts' ∧ ts.Onward ts' ∧
      ts'.view known = (ts.view known).relock ⟨t.id, content, key⟩ (Task.setAll locks on) := by
  have hold : ∃ old s₁, (Task.foundOrNew t content key (ts.masterTag? key)).run s = (.ok old, s₁) ∧
      s₁.Serves b known n ts ∧ old.Relocks b known s₁ ts ⟨t.id, content, key⟩ fun r => r := by
    cases hfound : ts.masterTag? key with
    | none => exact h.run_newMasterTag ht hkey hfound
    | some old => exact ⟨old, s, rfl, h.mono (Nat.le_succ n), h.relocks_of_held hfound⟩
  obtain ⟨old, s₁, hrun, hs₁, hold⟩ := hold
  obtain ⟨hsubject, hlocks⟩ := BareMaster.mk.inj hold.bare
  let tag : MasterTag :=
    { old with
      restrictions := Task.setAll locks on old.restrictions
      updatedAt := s₁.supply.times s₁.supply.timesUsed }
  have htag : tag.Relocks b known s₁.afterTime ts ⟨t.id, content, key⟩ (Task.setAll locks on) := by
    refine ⟨fun hplace => ⟨(hold.dated hplace).createdAt, hs₁.clock _⟩, hold.derived,
      hold.migrationId, ?_⟩
    rw [← hsubject, ← hlocks]
    rfl
  obtain ⟨s', ts', hsave, hrest⟩ := hs₁.afterTime.run_saveMasterTag htag
  refine ⟨tag, s', ts', ?_, hrest⟩
  rw [Task.saveLocks, Action.run_bind_ok hrun, Action.run_bind_ok (Store.run_now s₁),
    Action.run_bind_ok hsave]
  rfl

end Saving

/-! ### Copies -/

/-- What depends on what is held only succeeds, and leaves a store that works. -/
theorem run_determined {α : Type} {P : α → Prop} {x : Action Store α} (h : s.Serves b known n ts)
    (hx : Determined P x) :
    ∃ a s', x.run s = (.ok a, s') ∧ s'.Works ∧ s'.seen = s'.stored := by
  obtain ⟨a, -, c', -, hrun⟩ := hx _ h.good
  obtain ⟨s', hs', hholds⟩ := hrun s h.holds
  exact ⟨a, s', hs', hholds.works, hholds.shown⟩

theorem rows (h : s.Serves b known n ts) : s.stored.childTags = .ok ts.childTags :=
  congrArg Stored.childTags h.holds.stored

theorem childTag?_of_mem (h : s.Serves b known n ts) {c : ChildTag} (hc : c ∈ ts.childTags) :
    s.stored.childTag? c.content = .ok (some c) := by
  rw [Store.childTag?_of_rows h.rows]
  exact congrArg _ ((Tables.find?_eq_some_iff h.keyed.contents).2 ⟨hc, rfl⟩)

/-- The tag of a copy that is there is found. -/
theorem run_findOrCreateChildTag (h : s.Serves b known n ts) {c : ChildTag} (hc : c ∈ ts.childTags)
    (subscription : Uuid) (id : Option String) :
    (Store.findOrCreateChildTag subscription c.content id).run s = (.ok c, s) :=
  Store.run_findOrCreateChildTag_of_held
    (Store.isOpen_of_shown (g := Stored.childTags) rfl (by rw [h.holds.shown, h.rows]) hc)
    (h.childTag?_of_mem hc) subscription id

/-- A copy is made, if the subscription has none of the content. -/
theorem run_makeCopy (h : s.Serves b known (n + 2) ts) (kind : Kind) {subscription : Uuid}
    {key : String}
    (hnone : ∀ c ∈ ts.childTags, c.subscriptionId = subscription → c.migrationId ≠ some key)
    (rewrite : BareCopy → BareCopy) :
    ∃ content s' ts', (Task.makeCopy subscription kind key).run s = (.ok content, s') ∧
      s'.Serves b known n ts' ∧ ts.Onward ts' ∧
      ts'.view known = (ts.view known).copy ⟨subscription, kind, none, some key, ∅⟩ rewrite := by
  -- the identifier that is drawn is new
  let content : ContentKey := ⟨kind, s.supply.ids s.supply.idsUsed⟩
  have hnew : ∀ c ∈ ts.childTags, c.content ≠ content := by
    intro c hc heq
    refine h.spares.unused s.supply.idsUsed le_rfl (by omega) (List.mem_map.2 ⟨c, hc, ?_⟩)
    rw [heq]
  have hunknown : content ∉ known := by
    intro hk
    obtain ⟨c, hc, hcontent⟩ := h.known content hk
    exact hnew c hc hcontent
  obtain ⟨tag, s', hrun, hworks, hshown⟩ := h.afterId.run_determined
    (Store.determined_findOrCreateChildTag subscription content (some key))
  have hspec := Store.findOrCreateChildTag_spec h.afterId.clock hrun
  have hrows : ∃ rows, s.afterId.stored.childTags = .ok rows ∧
      tag.subscriptionId = subscription ∧ tag.content = content ∧ tag.migrationId = some key ∧
      tag.changes = ∅ ∧ s'.stored = s.afterId.stored.withChildTags (rows ++ [tag]) := by
    rcases hspec.ends with ⟨e, he, -⟩ | ⟨tag', htag, -, hheld, hstored | hadded⟩
    · cases he
    · -- no tag was there for new content
      rw [hstored, Store.childTag?_of_rows h.afterId.rows] at hheld
      have hfound := Except.ok.inj hheld
      exact absurd (Tables.content_of_childTagIn hfound)
        (hnew tag' (List.mem_of_find?_eq_some hfound))
    · cases htag
      obtain ⟨rows, hrows, -, hsubscription, hcontent, hid, hchanges, hstored⟩ := hadded
      exact ⟨rows, hrows, hsubscription, hcontent, hid, hchanges, hstored⟩
  obtain ⟨rows, hrows, hsubscription, hcontent, hid, hchanges, hstored⟩ := hrows
  rw [h.afterId.rows] at hrows
  obtain rfl := Except.ok.inj hrows
  rw [h.afterId.holds.stored] at hstored
  have hlater : s.supply.Later s'.supply := (Store.later_afterId s).trans hspec.supply
  have honward : ts.Onward { ts with childTags := ts.childTags ++ [tag] } :=
    ⟨rfl, rfl, fun c hc => ⟨c, List.mem_append_left _ hc, rfl, rfl, rfl, fun _ hx => hx⟩⟩
  have hdraws : s'.supply.idsUsed ≤ s.supply.idsUsed + 1 + 1 := by
    have hdrawn := Store.draws_findOrCreateChildTag subscription content (some key) s.afterId
    rw [hrun] at hdrawn
    exact hdrawn
  refine ⟨content, s', { ts with childTags := ts.childTags ++ [tag] }, ?_, ?_, honward, ?_⟩
  · rw [Task.makeCopy, Action.run_bind_ok (Store.run_newId s), Action.run_bind_ok hrun]
    rfl
  · refine h.next ⟨hworks, hshown, rfl, hstored⟩ hlater (by omega) honward
      (h.keyed.copy fun c hc => hcontent ▸ hnew c hc)
      (Tables.nodup_map_append h.oneCopy fun c hc heq => ?_) fun c hc => ?_
    · obtain ⟨hsame, hsameId⟩ := Prod.mk.inj heq
      exact hnone c hc (hsame.trans hsubscription) (hsameId.trans hid)
    · rcases List.mem_append.1 hc with hc | hc
      · exact .inl ⟨c, hc, rfl⟩
      · obtain rfl := List.mem_singleton.1 hc
        right
        rw [hcontent]
        exact ⟨s.supply.idsUsed, le_rfl, hspec.supply.idsUsed, rfl⟩
  · refine Tables.view_append ?_ fun c hc hcopy => hnone c hc hcopy.1 hcopy.2
    rw [ChildTag.bare, hsubscription, hcontent, if_neg hunknown, hid, hchanges]

/-- Changes are removed from the tag of a copy that is there. -/
theorem run_forget (h : s.Serves b known n ts) {c found : ChildTag} (hc : c ∈ ts.childTags)
    (hcontent : found.content = c.content) {p : Reconciliation.Plan} {fresh : BareCopy}
    {rewrite : BareCopy → BareCopy} (hcopy : (c.bare known).IsCopyOf fresh)
    (hrewrite : { c.bare known with changes := c.changes \ p.forget } = rewrite (c.bare known)) :
    ∃ s' ts', (Rulebook.forget found p).run s = (.ok (), s') ∧ s'.Serves b known n ts' ∧
      ts.Onward ts' ∧ ts'.view known = (ts.view known).copy fresh rewrite := by
  have hnone : ts.putChildTag (c.withChanges c.changes c.updatedAt) = ts :=
    Tables.putChildTag_self h.keyed.contents hc
  -- whether or not there is anything to remove, the tag is left with the other changes
  have hdone : ∃ s' time, (Rulebook.forget found p).run s = (.ok (), s') ∧ s'.Works ∧
      s'.seen = s'.stored ∧ s.supply.Later s'.supply ∧ s'.supply.idsUsed ≤ s.supply.idsUsed ∧
      s'.stored = .of (ts.putChildTag (c.withChanges (c.changes \ p.forget) time)) := by
    cases hforget : p.forget.isEmpty with
    | true =>
      refine ⟨s, c.updatedAt, ?_, h.holds.works, h.holds.shown, .refl _, le_rfl, ?_⟩
      · rw [Rulebook.forget, hforget]
        rfl
      · rw [Rulebook.diff_of_isEmpty hforget, hnone]
        exact h.holds.stored
    | false =>
      obtain ⟨removed, s', hrun, hworks, hshown⟩ :=
        h.run_determined (Store.determined_removeChanges c.content p.forget)
      obtain ⟨hlater, -, ⟨e, he, -⟩ | ⟨-, -, hstored⟩⟩ :=
        Store.removeChanges_spec h.clock (h.childTag?_of_mem hc) hrun
      · cases he
      · have hrun' : (Rulebook.forget found p).run s = (.ok (), s') := by
          rw [Rulebook.forget, hforget, hcontent]
          exact Action.run_bind_ok hrun
        have hdraws : s'.supply.idsUsed ≤ s.supply.idsUsed := by
          have hdrawn := Store.draws_removeChanges c.content p.forget s
          rw [hrun] at hdrawn
          exact hdrawn
        rcases hstored with ⟨hsame, hstored⟩ | ⟨rows, time, hrows, -, hstored⟩
        · refine ⟨s', c.updatedAt, hrun', hworks, hshown, hlater, hdraws, ?_⟩
          rw [hsame, hnone, hstored]
          exact h.holds.stored
        · rw [h.rows] at hrows
          obtain rfl := Except.ok.inj hrows
          rw [h.holds.stored] at hstored
          exact ⟨s', time, hrun', hworks, hshown, hlater, hdraws, hstored⟩
  obtain ⟨s', time, hrun, hworks, hshown, hlater, hdraws, hstored⟩ := hdone
  have hfind : Tables.childTagIn ts.childTags c.content = some c :=
    (Tables.find?_eq_some_iff h.keyed.contents).2 ⟨hc, rfl⟩
  have hkeyed := h.keyed.changed (c.changes \ p.forget) time hfind
  have honward : ts.Onward (ts.putChildTag (c.withChanges (c.changes \ p.forget) time)) :=
    .of_putChildTag time h.keyed.contents hc fun x hx => (NameSet.mem_diff.1 hx).1
  refine ⟨s', _, hrun, ?_, honward, Tables.view_putChildTag h.keyed.contents hc h.oneCopy rfl hcopy
    hrewrite⟩
  refine h.next ⟨hworks, hshown, rfl, hstored⟩ hlater (by omega) honward hkeyed
    (Tables.nodup_map_replaceFirst hfind rfl h.oneCopy) fun c' hc' => ?_
  rcases Tables.mem_replaceFirst hc' with rfl | hc'
  · exact .inl ⟨c, hc, rfl⟩
  · exact .inl ⟨c', hc', rfl⟩

end Store.Serves

end CourseBlueprint
