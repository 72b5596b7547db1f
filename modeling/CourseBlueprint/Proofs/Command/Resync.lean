import CourseBlueprint.Proofs.Command.Soundness
import CourseBlueprint.Proofs.Save.SurvivingEdit

/-!
# What a sync forgets

A sync of a copy forgets the recorded changes that lie in categories with a lock on the blueprint
content, whatever it assigns, and no others (`sync_forgets_overruled`).
-/

namespace CourseBlueprint

/-! ## The locks that a sync goes by -/

namespace Dict

variable {α : Type} {es : List (String × α)} {d : Dict α} {key : String}

theorem get?_foldl_put_of_ne (h : ∀ e ∈ es, e.1 ≠ key) :
    (es.foldl (fun d e => d.put e.1 e.2) d).get? key = d.get? key := by
  induction es generalizing d with
  | nil => rfl
  | cons e es ih =>
    have hrest : ∀ e' ∈ es, e'.1 ≠ key := fun e' he' => h e' (List.mem_cons_of_mem e he')
    rw [List.foldl_cons, ih hrest]
    exact get?_put_of_ne (Ne.symm (h e List.mem_cons_self))

/-- An entry counts if all others of its key have its value. -/
theorem get?_ofList_of_forall {v : α} (hmem : ∃ e ∈ es, e.1 = key)
    (hall : ∀ e ∈ es, e.1 = key → e.2 = v) :
    (ofList es).get? key = some v := by
  unfold ofList
  generalize (∅ : Dict α) = d
  induction es generalizing d with
  | nil =>
    obtain ⟨e, he, -⟩ := hmem
    exact absurd he List.not_mem_nil
  | cons e es ih =>
    have hrest : ∀ e' ∈ es, e'.1 = key → e'.2 = v :=
      fun e' he' => hall e' (List.mem_cons_of_mem e he')
    rw [List.foldl_cons]
    by_cases hlater : ∃ e' ∈ es, e'.1 = key
    · exact ih hlater hrest _
    · -- no entry of the key comes later
      obtain ⟨e', he', hkey⟩ := hmem
      obtain rfl : e' = e := by
        rcases List.mem_cons.1 he' with rfl | he'
        · rfl
        · exact absurd ⟨e', he', hkey⟩ hlater
      rw [get?_foldl_put_of_ne fun x hx heq => hlater ⟨x, hx, heq⟩, ← hkey, get?_put_self,
        hall e' List.mem_cons_self hkey]

end Dict

/-- Rows that have all with an identifier of some that are held tell what these tell of it. -/
theorem MasterTag.locks_ofList {rows tags : List MasterTag}
    (hnodup : (rows.map MasterTag.migrationId).Nodup) {id : String}
    (hheld : ∀ t ∈ tags, t ∈ rows) (hall : ∀ t ∈ rows, t.migrationId = id → t ∈ tags) :
    ((Dict.ofList (tags.map fun t => (t.migrationId, t.restrictions))).get? id).getD .none =
      MasterTag.locksUnder rows id := by
  unfold MasterTag.locksUnder
  cases hfind : rows.find? fun t => t.migrationId = id with
  | none =>
    have hnone : ∀ e ∈ tags.map fun t => (t.migrationId, t.restrictions), e.1 ≠ id := by
      intro e he heq
      obtain ⟨t, ht, rfl⟩ := List.mem_map.1 he
      exact List.find?_eq_none.1 hfind t (hheld t ht) (decide_eq_true heq)
    rw [Dict.ofList, Dict.get?_foldl_put_of_ne hnone]
    rfl
  | some t =>
    obtain ⟨ht, hid⟩ := (Tables.find?_eq_some_iff hnodup).1 hfind
    rw [Dict.get?_ofList_of_forall (v := t.restrictions)]
    · rfl
    · exact ⟨_, List.mem_map_of_mem (hall t ht hid), hid⟩
    · intro e he hkey
      obtain ⟨t', ht', rfl⟩ := List.mem_map.1 he
      rw [Tables.eq_of_nodup_map hnodup (hheld t' ht') ht (hkey.trans hid.symm)]

namespace Command

variable {b : Rulebook} {s s' s₁ : Store} {t : Template} {sub : Subscription}

/-- A migration that was loaded for a subscription knows the locks that are held for the content of
the template. -/
theorem find?_migrationOf {ts : Tables} {tags : List MasterTag} (hkeyed : ts.Keyed b)
    (htags : tags.Perm (ts.masterTags.filter fun m => m.templateId = sub.templateId))
    (hfollows : t.id = sub.templateId) (k : ContentKey) :
    ((migrationOf sub tags).find? (t.migrationId b.settings.marker k)).getD .none =
      MasterTag.locksUnder ts.masterTags (t.migrationId b.settings.marker k) := by
  have hmem : ∀ m, m ∈ tags ↔ m ∈ ts.masterTags ∧ m.templateId = sub.templateId := by
    intro m
    rw [htags.mem_iff, List.mem_filter, decide_eq_true_eq]
  refine MasterTag.locks_ofList hkeyed.migrationIds (fun m hm => ((hmem m).1 hm).1)
    fun m hm hid => (hmem m).2 ⟨hm, ?_⟩
  -- the identifier tells the template
  obtain ⟨t', -, htemplate, hderived⟩ := hkeyed.derived m hm
  rw [← htemplate, ← hfollows]
  exact (Template.migrationId_inj (hderived.symm.trans hid)).1

/-- A migration that was loaded from keyed tables knows the locks that they hold. -/
theorem find?_of_load {m : Migration} (hshown : s.seen = s.stored) (hkeyed : s.Keyed b)
    (hload : (Migration.load sub).run s = (.ok m, s')) (hfollows : t.id = sub.templateId)
    (k : ContentKey) : ∃ rows, s.stored.masterTags = .ok rows ∧
      (m.find? (t.migrationId b.settings.marker k)).getD .none =
        MasterTag.locksUnder rows (t.migrationId b.settings.marker k) := by
  obtain ⟨ts, hstored, hts⟩ := hkeyed
  rw [run_load, hshown, hstored] at hload
  obtain rfl := Except.ok.inj (Prod.mk.inj hload).1
  refine ⟨ts.masterTags, by rw [hstored]; rfl, ?_⟩
  exact find?_migrationOf hts (List.mergeSort_perm _ _) hfollows k

/-- Tracking content changes no locks: a tag that is made has none. -/
theorem Tracked.locksUnder {content : ContentKey} {tag : MasterTag} {rows rows₁ : List MasterTag}
    (h : Tracked b s t content (.ok tag) s₁) (hrows : s.stored.masterTags = .ok rows)
    (hrows₁ : s₁.stored.masterTags = .ok rows₁) (id : String) :
    MasterTag.locksUnder rows₁ id = MasterTag.locksUnder rows id := by
  cases h with
  | found halike =>
    rw [halike.stored, hrows] at hrows₁
    rw [Except.ok.inj hrows₁]
  | made hlater hopen hheld hnew htemplate hcontent hid hrestrictions hstored =>
    rw [hrows] at hheld
    obtain rfl := Except.ok.inj hheld
    rw [hstored] at hrows₁
    obtain rfl := Except.ok.inj hrows₁
    unfold MasterTag.locksUnder
    rw [List.find?_append]
    cases hfind : rows.find? fun row => row.migrationId = id with
    | some row => rfl
    | none =>
      by_cases hsame : tag.migrationId = id
      · simp [hsame, hrestrictions]
      · simp [hsame]

/-- The locks that an import goes by for what is wanted of a copy: those of the content it was made
from. -/
theorem locksIn_copyWanted {tag : ChildTag} {id : String} (m : Migration)
    (assignments : List Assignment) (hid : tag.migrationId = some id) :
    (copyWanted tag assignments).locksIn m = (m.find? id).getD .none := by
  obtain ⟨attributes, pending, hitem⟩ := copyWanted_frame tag assignments
  rw [hitem]
  unfold Item.locksIn
  simp only [hid]
  rfl

/-! ## What is forgotten -/

/-- Whether a change of a column, recorded for the copy that a subscription has of blueprint content,
is overruled by the locks that the store holds for the content. -/
def Overruled (b : Rulebook) (s : Store) (id : Uuid) (master : ContentKey) (tag : ChildTag)
    (column : String) : Prop :=
  ∃ t rows, s.Follows id t ∧ s.stored.masterTags = .ok rows ∧ tag.subscriptionId = id ∧
    tag.migrationId = some (t.migrationId b.settings.marker master) ∧
    ∃ g, column ∈ (b.registry tag.content.kind).columns g ∧
      (MasterTag.locksUnder rows (t.migrationId b.settings.marker master)).isLocked g = true

/-- What a sync leaves of the changes of a child tag: no others than there were; all but those that
are overruled; and none that are overruled, if the sync answers with the copy. The mark of a deletion
is left out of account. -/
structure SyncLeaves (b : Rulebook) (s : Store) (id : Uuid) (master : ContentKey) (tag : ChildTag)
    (r : Result Report) (changes : NameSet) : Prop where
  known : ∀ x ∈ changes, x ∈ tag.changes
  forgotten : ∀ x ∈ tag.changes, x ≠ manuallyDeleted → ¬ x ∈ changes →
    Overruled b s id master tag x
  overruled : ∀ report answered, r = .ok report → answered ∈ report.childTags →
    answered.content = tag.content → ∀ x ∈ changes, x ≠ manuallyDeleted →
      ¬ Overruled b s id master tag x

variable {id : Uuid} {master : ContentKey} {assignments : List Assignment} {masterTag : MasterTag}
  {tags : List ChildTag} {m : Migration} {tag : ChildTag}

/-- A sync that fails leaves all changes of a tag that stays as it was. -/
theorem SyncLeaves.of_error {e : Failure} : SyncLeaves b s id master tag (.error e) tag.changes where
  known := fun _ hx => hx
  forgotten := fun _ hx _ hforgotten => absurd hx hforgotten
  overruled := by
    intro report answered hr
    cases hr

/-- What an import was that answers. -/
theorem of_saveImported {i : Item} {done : SaveReport × Item}
    (h : (saveImported b m i).run s = (.ok done, s')) :
    ∃ d, (b.save (.importing m) .noop).run ⟨s, i, [], []⟩ = (.ok (.saved done.1), d) ∧
      s' = d.store := by
  rw [saveImported, Action.run_bind_eq_ok] at h
  obtain ⟨⟨outcome, d⟩, s₁, hon, h⟩ := h
  obtain ⟨hsave, rfl⟩ := Work.run_on_eq_ok.1 hon
  cases outcome with
  | rejected rejection => cases h
  | saved report =>
    obtain ⟨rfl, rfl⟩ := Action.run_pure_eq_ok.1 h
    exact ⟨d, hsave, rfl⟩

/-- What a sync goes by once it has begun: the template and the locks that the store held, and the
child tags of the subscription. -/
structure Syncing (b : Rulebook) (s : Store) (id : Uuid) (master : ContentKey) (sub : Subscription)
    (t : Template) (tags : List ChildTag) (m : Migration) (s₁ : Store) : Prop where
  ready : s₁.Ready
  subscription : sub.id = id
  migration : m.subscription = sub
  follows : s.Follows id t
  childTags : s₁.stored.childTags = s.stored.childTags
  contents : ∃ rows, s.stored.childTags = .ok rows ∧ (rows.map ChildTag.content).Nodup ∧
    ∀ tag, tag ∈ tags ↔ tag ∈ rows ∧ tag.subscriptionId = sub.id
  locks : ∃ rows, s.stored.masterTags = .ok rows ∧
    (m.find? (t.migrationId b.settings.marker master)).getD .none =
      MasterTag.locksUnder rows (t.migrationId b.settings.marker master)

theorem SyncBegun.syncing (h : SyncBegun b s id master sub t masterTag tags m s₁) (hready : s.Ready)
    (hkeyed : s.Keyed b) : Syncing b s id master sub t tags m s₁ := by
  obtain ⟨-, subscriptions, hsubscriptions, hfindSub⟩ := of_subscription h.subscription
  obtain ⟨-, templates, htemplates, hfind⟩ := of_template h.template
  obtain ⟨-, ht, hfollows⟩ := of_followed hready.shown h.subscription h.template
  have htracking := Command.tracked hready h.tracked
  have htracked : s.Move b (fun _ => True) s₁ := htracking.move ht h.kind trivial
  have hready₁ : s₁.Ready := htracked.ready hready
  obtain ⟨-, -, -, -, -, hchildTags⟩ := htracking.of_ok
  obtain ⟨rows₁, hrows₁, hlocks⟩ :=
    find?_of_load hready₁.shown (htracked.moves.keyed hkeyed) h.load hfollows master
  obtain ⟨ts, hstored, hts⟩ := hkeyed
  obtain ⟨rows, hrows, hmem⟩ := h.mem_tags hready₁.shown
  rw [hchildTags, hstored] at hrows
  obtain rfl := Except.ok.inj hrows
  have hmasterTags : s.stored.masterTags = .ok ts.masterTags := by rw [hstored]; rfl
  exact
    { ready := hready₁
      subscription := by simpa using List.find?_some hfindSub
      migration := (of_load h.load).2
      follows := ⟨subscriptions, templates, sub, hsubscriptions, hfindSub, htemplates, hfind⟩
      childTags := hchildTags
      contents := ⟨ts.childTags, by rw [hstored]; rfl, hts.contents, hmem⟩
      locks := ⟨ts.masterTags, hmasterTags,
        hlocks.trans (htracking.locksUnder hmasterTags hrows₁ _)⟩ }

namespace Syncing

variable (h : Syncing b s id master sub t tags m s₁)
include h

/-- A column is overruled exactly for the copy that the sync finds, by the locks that it goes by. -/
theorem overruled_iff {column : String} (htag : s.stored.childTag? tag.content = .ok (some tag)) :
    Overruled b s id master tag column ↔ tag ∈ tags ∧
      tag.migrationId = some (t.migrationId b.settings.marker master) ∧
      ∃ g, column ∈ (b.registry tag.content.kind).columns g ∧
        ((m.find? (t.migrationId b.settings.marker master)).getD .none).isLocked g = true := by
  obtain ⟨rows, hrows, -, hmem⟩ := h.contents
  obtain ⟨masterTags, hmasterTags, hlocks⟩ := h.locks
  rw [Store.childTag?_of_rows hrows] at htag
  have hheld : tag ∈ rows := List.mem_of_find?_eq_some (Except.ok.inj htag)
  rw [hlocks, hmem, h.subscription]
  constructor
  · rintro ⟨t', masterTags', hfollows', hmasterTags', hours, hid, hlocked⟩
    obtain rfl := hfollows'.unique h.follows
    rw [hmasterTags] at hmasterTags'
    obtain rfl := Except.ok.inj hmasterTags'
    exact ⟨⟨hheld, hours⟩, hid, hlocked⟩
  · rintro ⟨⟨-, hours⟩, hid, hlocked⟩
    exact ⟨t, masterTags, h.follows, hmasterTags, hours, hid, hlocked⟩

/-- The tag that a sync finds for a copy is the one that is held for its content. -/
theorem eq_of_content {existing : ChildTag} (hexisting : existing ∈ tags)
    (htag : s.stored.childTag? tag.content = .ok (some tag))
    (hcontent : existing.content = tag.content) : existing = tag := by
  obtain ⟨rows, hrows, hdistinct, hmem⟩ := h.contents
  rw [Store.childTag?_of_rows hrows] at htag
  have hheld : tag ∈ rows := List.mem_of_find?_eq_some (Except.ok.inj htag)
  exact Tables.eq_of_nodup_map hdistinct ((hmem existing).1 hexisting).1 hheld hcontent

theorem childTag? (content : ContentKey) :
    s₁.stored.childTag? content = s.stored.childTag? content := by
  unfold Stored.childTag?
  rw [h.childTags]

/-- A copy that is made leaves the tags there were. -/
theorem childTag?_of_copied {made : Result ChildTag}
    (hmade : (createCopy b m master.kind (t.migrationId b.settings.marker master) assignments).run
      s₁ = (made, s'))
    (htag : s.stored.childTag? tag.content = .ok (some tag)) :
    s'.stored.childTag? tag.content = .ok (some tag) := by
  obtain ⟨attributes, pending, outcome, d, hsave, rfl⟩ := run_createCopy_ends hmade
  have hclock : s₁.afterId.supply.ShowsDates :=
    (Store.later_afterId s₁).showsDates h.ready.clock
  refine Rulebook.childTag?_of_isNew hclock rfl rfl hsave ?_
  rw [Store.stored_afterId, h.childTag?, htag]

/-- A copy that is made takes nothing from the tags there were, none of which is that of a copy of the
content. -/
theorem leaves_copied {r : Result Report}
    (hnone : (tags.find? fun tag =>
      tag.migrationId = some (t.migrationId b.settings.marker master)) = none)
    (htag : s.stored.childTag? tag.content = .ok (some tag)) :
    SyncLeaves b s id master tag r tag.changes := by
  have hnot : ∀ x, ¬ Overruled b s id master tag x := by
    intro x hoverruled
    obtain ⟨hmem, hid, -⟩ := (h.overruled_iff htag).1 hoverruled
    exact List.find?_eq_none.1 hnone tag hmem (decide_eq_true hid)
  exact ⟨fun _ hx => hx, fun _ hx _ hforgotten => absurd hx hforgotten,
    fun _ _ _ _ _ x _ _ => hnot x⟩

/-- The import of a copy that the sync has found takes from the tags there were only what is
overruled. -/
theorem leaves_saved {existing : ChildTag} {saved : Result (SaveReport × Item)}
    (hexisting : existing ∈ tags)
    (hid : existing.migrationId = some (t.migrationId b.settings.marker master))
    (hsaved : (saveImported b m (copyWanted existing assignments)).run s₁ = (saved, s'))
    (htag : s.stored.childTag? tag.content = .ok (some tag)) :
    ∃ changes time, s'.stored.childTag? tag.content = .ok (some (tag.withChanges changes time)) ∧
      (∀ x ∈ changes, x ∈ tag.changes) ∧
      ∀ x ∈ tag.changes, x ≠ manuallyDeleted → ¬ x ∈ changes → Overruled b s id master tag x := by
  obtain ⟨outcome, d, hsave, rfl⟩ := run_saveImported_ends hsaved
  obtain ⟨attributes, pending, hitem⟩ := copyWanted_frame existing assignments
  have hlocks := locksIn_copyWanted m assignments hid
  have hpermits := Rulebook.permits_save (d := ⟨s₁, copyWanted existing assignments, [], []⟩)
    h.ready.clock hsave
  have htag₁ : s₁.stored.childTag? tag.content = .ok (some tag) := by rw [h.childTag?, htag]
  obtain ⟨changes, time, hheld, hexplains⟩ := hpermits.childTag? htag₁
  refine ⟨changes, time, hheld, ?_, ?_⟩
  · intro x hx
    by_cases hmem : x ∈ tag.changes
    · exact hmem
    · cases (hexplains.got x hx hmem).1
  · intro x hx hmark hforgotten
    obtain ⟨-, hkey, hoverrules⟩ := hexplains.lost x hx hforgotten
    have hcontent : existing.content = tag.content := by
      have hkey' : (copyWanted existing assignments).key = tag.content := hkey
      rw [hitem] at hkey'
      exact hkey'
    obtain rfl := h.eq_of_content hexisting htag hcontent
    rcases hoverrules with ⟨r, d', hrun, g, -, hcolumn, hlocked⟩ | ⟨hdeleted, -⟩
    · rw [Rulebook.run_restrictionsInForce_import rfl] at hrun
      obtain rfl := Except.ok.inj (Prod.mk.inj hrun).1
      have hcolumn' : x ∈ (b.registry (copyWanted existing assignments).key.kind).columns g :=
        hcolumn
      have hlocked' : ((copyWanted existing assignments).locksIn m).isLocked g = true := hlocked
      rw [hitem] at hcolumn'
      rw [hlocks] at hlocked'
      exact (h.overruled_iff htag).2 ⟨hexisting, hid, g, hcolumn', hlocked'⟩
    · exact absurd hdeleted hmark

/-- An import of the copy that answers leaves nothing that is overruled. -/
theorem not_overruled_of_saved {done : SaveReport × Item} {changes : NameSet} {time : Timestamp}
    (hsaved : (saveImported b m (copyWanted tag assignments)).run s₁ = (.ok done, s'))
    (htag : s.stored.childTag? tag.content = .ok (some tag))
    (htag' : s'.stored.childTag? tag.content = .ok (some (tag.withChanges changes time)))
    {x : String} (hx : x ∈ changes) : ¬ Overruled b s id master tag x := by
  intro hoverruled
  obtain ⟨-, hid, g, hcolumn, hlocked⟩ := (h.overruled_iff htag).1 hoverruled
  obtain ⟨d, hsave, rfl⟩ := of_saveImported hsaved
  obtain ⟨attributes, pending, hitem⟩ := copyWanted_frame tag assignments
  rw [hitem] at hsave
  have hmarks : b.settings.marks (t.migrationId b.settings.marker master) = true :=
    b.settings.marks_migrationId t master
  rw [hid] at hsave
  obtain ⟨d₁, hreconciled, rfl⟩ :=
    Rulebook.reconciled_of_saved h.ready.clock rfl (by exact hmarks) rfl hsave
  have htag₁ : s₁.stored.childTag? tag.content = .ok (some tag) := by rw [h.childTag?, htag]
  have hrecords : d₁.Records x := by
    obtain ⟨-, attributes₁, pending₁, kept, hitem₁⟩ := hreconciled.frame
    refine ⟨tag.withChanges changes time, ?_, hx⟩
    rw [hitem₁]
    exact htag'
  obtain ⟨hchange, hkept⟩ := (hreconciled.records_iff htag₁ x).1 hrecords
  -- the locks that the import goes by are those of the content, since the copy keeps none itself
  exact hkept (Reconciliation.Plan.mem_forget_full.2 (.inl ⟨hchange, g, hcolumn, hlocked⟩))

end Syncing

theorem sync_leaves {r : Result Report} (hready : s.Ready) (hkeyed : s.Keyed b)
    (hsync : (sync b id master assignments).run s = (r, s'))
    (htag : s.stored.childTag? tag.content = .ok (some tag)) :
    ∃ changes time, s'.stored.childTag? tag.content = .ok (some (tag.withChanges changes time)) ∧
      SyncLeaves b s id master tag r changes := by
  have hfailed : ∀ {e : Failure} {s₂ : Store}, s₂.stored.childTags = s.stored.childTags →
      ∃ changes time, s₂.stored.childTag? tag.content =
          .ok (some (tag.withChanges changes time)) ∧
        SyncLeaves b s id master tag (.error e) changes := by
    intro e s₂ hsame
    refine ⟨tag.changes, tag.updatedAt, ?_, .of_error⟩
    unfold Stored.childTag?
    rw [hsame]
    exact htag
  cases sync_ends hsync with
  | stopped => exact hfailed rfl
  | untracked hkind hsub ht htracked =>
    cases tracked hready htracked with
    | failed hlater hopen hstored => exact hfailed (by rw [hstored])
  | unread hkind hsub ht htracked =>
    obtain ⟨-, -, -, -, -, hchildTags⟩ := (tracked hready htracked).of_ok
    exact hfailed hchildTags
  | copied hbegun hnone hmade =>
    have hsyncing := hbegun.syncing hready hkeyed
    exact ⟨tag.changes, tag.updatedAt, hsyncing.childTag?_of_copied hmade htag,
      hsyncing.leaves_copied hnone htag⟩
  | @resynced sub t masterTag tags m s₁ _ existing saved hbegun hexisting hsaved =>
    have hsyncing := hbegun.syncing hready hkeyed
    have hmem : existing ∈ tags := List.mem_of_find?_eq_some hexisting
    have hid : existing.migrationId = some (t.migrationId b.settings.marker master) := by
      simpa using List.find?_some hexisting
    obtain ⟨changes, time, hheld, hknown, hforgotten⟩ :=
      hsyncing.leaves_saved hmem hid hsaved htag
    refine ⟨changes, time, hheld, hknown, hforgotten, ?_⟩
    intro report answered hr hanswered hcontent x hx _
    cases saved with
    | error e => cases hr
    | ok done =>
      obtain ⟨found, hfound, rfl⟩ := map_eq_ok.1 hr
      obtain rfl := List.mem_singleton.1 hanswered
      have hsame : answered.content = existing.content := Store.content_of_childTag?
        (Store.isOpen_of_seen (bind_ofOption_eq_ok.1 hfound)).2
      obtain rfl := hsyncing.eq_of_content hmem htag (hsame.symm.trans hcontent)
      exact hsyncing.not_overruled_of_saved hsaved htag hheld hx

end Command

variable {b : Rulebook} {s₀ s' : Store}

/-- After any events on a store that was empty, a sync forgets of a child tag only changes of its copy
that lie in categories with a lock on the blueprint content, and it forgets all of these if it answers
with the copy. What the sync assigns makes no difference. -/
theorem sync_forgets_overruled (b : Rulebook) (events : List Event)
    (hclock : s₀.supply.ShowsDates) (hempty : s₀.stored = .of .empty) {id : Uuid}
    {master : ContentKey} {texts : List String} {r : Result Report} {tag : ChildTag}
    (hsync : ((Request.sync id master texts).run b).run (runEvents b events s₀) = (r, s'))
    (htag : (runEvents b events s₀).stored.childTag? tag.content = .ok (some tag)) :
    ∃ changes time, s'.stored.childTag? tag.content = .ok (some (tag.withChanges changes time)) ∧
      Command.SyncLeaves b (runEvents b events s₀) id master tag r changes := by
  have hready₀ : s₀.Ready := Store.ready_of_empty hclock hempty
  have hmoves : s₀.Moves b (fun _ => True) (runEvents b events s₀) :=
    moves_runEvents hready₀ events fun _ _ _ _ => trivial
  have hkeyed : (runEvents b events s₀).Keyed b :=
    hmoves.keyed ⟨.empty, hempty, Tables.keyed_empty b⟩
  rw [Request.run] at hsync
  rcases Action.run_bind_ends hsync with ⟨e, hread, rfl⟩ | ⟨assignments, s₁, hread, hsync⟩
  · rw [Action.run_liftM] at hread
    obtain ⟨-, rfl⟩ := Prod.mk.inj hread
    exact ⟨tag.changes, tag.updatedAt, htag, .of_error⟩
  · obtain ⟨-, rfl⟩ := Action.run_liftM_eq_ok.1 hread
    exact Command.sync_leaves (hmoves.ready hready₀) hkeyed hsync htag

/-! ## A page whose edit is forgotten -/

namespace Sample

/-- A page is synced and its copy edited; then the content of the page is locked. -/
def lockAfterEdit : List Event :=
  [.request (.makeBlueprint ⟨10⟩), .request (.subscribe ⟨10⟩ ⟨4⟩),
    .request (.sync (supply.ids 1) page []),
    .request (.edit ⟨.wikiPage, supply.ids 3⟩ ["body=new"] false false),
    .request (.setLocks ⟨10⟩ page [.only .content] true)]

/-- The store after that. -/
def lockedAfterEdit : Store := runEvents rulebook lockAfterEdit (.inMemory supply)

/-- The store after another sync, which assigns nothing. -/
def syncedAgain : Store :=
  (((Request.sync (supply.ids 1) page []).run rulebook).run lockedAfterEdit).2

/-- The child tag of the copy with the given changes. -/
def copyTag (changes : List String) : ChildTag :=
  ⟨supply.ids 4, supply.ids 1, ⟨.wikiPage, supply.ids 3⟩,
    some (Template.migrationId ⟨supply.ids 0, ⟨10⟩, .epoch⟩ rulebook.settings.marker page),
    .ofList changes, .epoch, .epoch⟩

theorem childTag?_lockedAfterEdit :
    lockedAfterEdit.stored.childTag? (copyTag ["body"]).content = .ok (some (copyTag ["body"])) :=
  Result.toOption_eq_some.1 (by decide +kernel)

theorem childTag?_syncedAgain :
    syncedAgain.stored.childTag? (copyTag ["body"]).content = .ok (some (copyTag [])) :=
  Result.toOption_eq_some.1 (by decide +kernel)

/-- The change of the body is forgotten since the content is locked. -/
theorem forgets_body :
    ∃ changes time, syncedAgain.stored.childTag? (copyTag ["body"]).content =
        .ok (some ((copyTag ["body"]).withChanges changes time)) ∧
      Command.SyncLeaves rulebook lockedAfterEdit (supply.ids 1) page (copyTag ["body"])
        (((Request.sync (supply.ids 1) page []).run rulebook).run lockedAfterEdit).1 changes ∧
      ¬ "body" ∈ changes := by
  obtain ⟨changes, time, htag, hleaves⟩ := sync_forgets_overruled rulebook lockAfterEdit
    showsDates_supply rfl (Prod.eta (((Request.sync (supply.ids 1) page []).run rulebook).run
      lockedAfterEdit)).symm childTag?_lockedAfterEdit
  refine ⟨changes, time, htag, hleaves, ?_⟩
  have hsame : some (copyTag []) = some ((copyTag ["body"]).withChanges changes time) :=
    Except.ok.inj (childTag?_syncedAgain.symm.trans htag)
  have hchanges : (copyTag []).changes = changes := congrArg ChildTag.changes (Option.some.inj hsame)
  rw [← hchanges]
  exact NameSet.not_mem_empty "body"

/-- Though the sync assigns nothing, the change of the body is forgotten. -/
theorem not_forgets_assigned :
    ¬ ∀ (b : Rulebook) (events : List Event) (s₀ s' : Store) (id : Uuid) (master : ContentKey)
      (texts : List String) (assignments : List Assignment) (r : Result Report)
      (tag tag' : ChildTag) (x : String), s₀.supply.ShowsDates → s₀.stored = .of .empty →
      Assignment.ofTexts texts = .ok assignments →
      ((Request.sync id master texts).run b).run (runEvents b events s₀) = (r, s') →
      (runEvents b events s₀).stored.childTag? tag.content = .ok (some tag) →
      s'.stored.childTag? tag.content = .ok (some tag') →
      x ∈ tag.changes → ¬ x ∈ tag'.changes → x ≠ manuallyDeleted →
      x ∈ assignments.map Prod.fst := by
  intro h
  have hassigned := h rulebook lockAfterEdit (.inMemory supply) syncedAgain (supply.ids 1) page [] []
    (((Request.sync (supply.ids 1) page []).run rulebook).run lockedAfterEdit).1 (copyTag ["body"])
    (copyTag []) "body" showsDates_supply rfl rfl (Prod.eta _).symm childTag?_lockedAfterEdit
    childTag?_syncedAgain (by decide) (NameSet.not_mem_empty "body") (by decide)
  exact absurd hassigned List.not_mem_nil

end Sample

end CourseBlueprint
