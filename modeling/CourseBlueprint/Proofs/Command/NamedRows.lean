import CourseBlueprint.Proofs.Command.Deletions
import CourseBlueprint.Proofs.Command.Frames
import CourseBlueprint.Proofs.Command.Soundness
import CourseBlueprint.Proofs.Concurrency.Commands

/-!
# The rows that a request names

Of each table a request adds or changes one row at most, and that within its reach (`Request.reach`): to
set locks is to add or change the master tag of the content, a sync may add that tag and add or change
the copy of the content in the subscription, and an edit changes the tag of the copy that it names. All
other rows stay as they were and where they were, whether the request is answered or fails
(`Request.touches_run`).
-/

namespace CourseBlueprint

/-! ## Reaches -/

/-- Which rows may be added to a table, and which may take the place of which. -/
structure Reach (α : Type) where
  adds : α → Prop := fun _ => False
  changes : α → α → Prop := fun _ _ => False

/-- A reach in each table. -/
structure Reaches where
  templates : Reach Template := {}
  subscriptions : Reach Subscription := {}
  masterTags : Reach MasterTag := {}
  childTags : Reach ChildTag := {}

/-- The rows of a table after one of them at most was added or changed within a reach. All others are
the same, in their places. -/
inductive Reach.Touches {α : Type} (reach : Reach α) (rows : List α) : List α → Prop
  | same : Touches reach rows rows
  | added {row : α} (hrow : reach.adds row) : Touches reach rows (rows ++ [row])
  | changed {before after : List α} {row row' : α} (hrow : reach.changes row row')
      (hrows : rows = before ++ row :: after) : Touches reach rows (before ++ row' :: after)

/-- Tables of which each was touched within its reach. -/
structure Reaches.Touches (reach : Reaches) (ts ts' : Tables) : Prop where
  templates : reach.templates.Touches ts.templates ts'.templates
  subscriptions : reach.subscriptions.Touches ts.subscriptions ts'.subscriptions
  masterTags : reach.masterTags.Touches ts.masterTags ts'.masterTags
  childTags : reach.childTags.Touches ts.childTags ts'.childTags

theorem Reaches.Touches.refl (reach : Reaches) (ts : Tables) : reach.Touches ts ts :=
  ⟨.same, .same, .same, .same⟩

theorem Supply.Drew.of_later {p p' p'' : Supply} {id : Uuid} (h : p'.Drew p'' id) (hlater : p.Later p') :
    p.Drew p'' id := by
  obtain ⟨i, hfrom, hto, rfl⟩ := h
  exact ⟨i, Nat.le_trans hlater.idsUsed hfrom, hto, by rw [hlater.ids]⟩

namespace Reach.Touches

variable {α β : Type} {reach : Reach α} {rows rows' : List α}

/-- Rows stay if none may take the place of another. -/
theorem mem_of_mem (h : reach.Touches rows rows') (hchanges : ∀ row row', ¬ reach.changes row row')
    {a : α} (ha : a ∈ rows) : a ∈ rows' := by
  cases h with
  | same => exact ha
  | added => exact List.mem_append_left _ ha
  | changed hrow => exact absurd hrow (hchanges _ _)

/-- What holds of all rows, and of those that may be added or take the place of others. -/
theorem forall_mem (h : reach.Touches rows rows') {P : α → Prop} (hrows : ∀ row ∈ rows, P row)
    (hadds : ∀ row, reach.adds row → P row)
    (hchanges : ∀ row row', reach.changes row row' → P row → P row') : ∀ row ∈ rows', P row := by
  cases h with
  | same => exact hrows
  | added hrow => exact Tables.forall_mem_append hrows (hadds _ hrow)
  | @changed before after row row' hrow hsplit =>
    intro a ha
    rcases List.mem_append.1 ha with ha | ha
    · exact hrows a (hsplit ▸ List.mem_append_left _ ha)
    · rcases List.mem_cons.1 ha with rfl | ha
      · exact hchanges row a hrow (hrows row (hsplit ▸ List.mem_append_right _ List.mem_cons_self))
      · exact hrows a (hsplit ▸ List.mem_append_right _ (List.mem_cons_of_mem _ ha))

/-- Rows outside the reach stay. -/
theorem filter_eq (h : reach.Touches rows rows') {p : α → Bool}
    (hadds : ∀ row, reach.adds row → p row = false)
    (hchanges : ∀ row row', row ∈ rows → reach.changes row row' → p row = false ∧ p row' = false) :
    rows'.filter p = rows.filter p := by
  cases h with
  | same => rfl
  | @added row hrow => simp [List.filter_append, hadds row hrow]
  | @changed before after row row' hrow hsplit =>
    have hmem : row ∈ rows := hsplit ▸ List.mem_append_right _ List.mem_cons_self
    obtain ⟨hbefore, hafter⟩ := hchanges row row' hmem hrow
    rw [hsplit]
    simp [List.filter_append, hbefore, hafter]

/-- Keys that rows keep stay different, if that of a row that is added is new. -/
theorem nodup_map (h : reach.Touches rows rows') {key : α → β} (hkeys : (rows.map key).Nodup)
    (hadds : ∀ row, reach.adds row → ∀ row' ∈ rows, key row' ≠ key row)
    (hchanges : ∀ row row', reach.changes row row' → key row' = key row) :
    (rows'.map key).Nodup := by
  cases h with
  | same => exact hkeys
  | added hrow => exact Tables.nodup_map_append hkeys (hadds _ hrow)
  | @changed before after row row' hrow hsplit =>
    have hsame : (before ++ row' :: after).map key = rows.map key := by
      rw [hsplit]
      simp [hchanges row row' hrow]
    rw [hsame]
    exact hkeys

end Reach.Touches

namespace Tables

variable {α : Type} {test : α → Bool} {a row : α} {rows : List α}

theorem touches_replaceFirst {reach : Reach α} (h : rows.find? test = some a)
    (hrow : reach.changes a row) : reach.Touches rows (replaceFirst test row rows) := by
  obtain ⟨before, after, hrows, -, -, hreplaced⟩ := replaceFirst_eq_append h row
  rw [hreplaced]
  exact .changed hrow hrows

/-- The template of a course. -/
def templateOf? (ts : Tables) (course : Uuid) : Option Template :=
  ts.templates.find? fun t => t.courseId = course

/-- The subscription with an identifier. -/
def subscription? (ts : Tables) (id : Uuid) : Option Subscription :=
  ts.subscriptions.find? fun sub => sub.id = id

/-- The template that a subscription follows. -/
def followed? (ts : Tables) (id : Uuid) : Option Template :=
  (ts.subscription? id).bind fun sub => ts.templates.find? fun t => t.id = sub.templateId

end Tables

/-! ## The reach of a request -/

/-- Whether a master tag is that of content of a template. -/
structure MasterTag.IsFor (b : Rulebook) (t : Template) (content : ContentKey) (m : MasterTag) :
    Prop where
  templateId : m.templateId = t.id
  migrationId : m.migrationId = t.migrationId b.settings.marker content
  content : m.content = content

/-- Whether a child tag is that of the copy of content of a template in a subscription. -/
structure ChildTag.IsCopyIn (b : Rulebook) (id : Uuid) (t : Template) (content : ContentKey)
    (c : ChildTag) : Prop where
  subscriptionId : c.subscriptionId = id
  migrationId : c.migrationId = some (t.migrationId b.settings.marker content)

namespace Tables

variable (b : Rulebook) (new : Uuid → Prop) (ts : Tables)

/-- Adding the master tag of content of a template where there is none. -/
def addsMaster (t? : Option Template) (content : ContentKey) (m : MasterTag) : Prop :=
  (∃ t ∈ t?, m.IsFor b t content) ∧ ∀ row ∈ ts.masterTags, row.migrationId ≠ m.migrationId

/-- Adding a copy of content of a template to a subscription that has none, under a new identifier. -/
def addsCopy (id : Uuid) (t? : Option Template) (content : ContentKey) (c : ChildTag) : Prop :=
  (∃ t ∈ t?, c.IsCopyIn b id t content ∧
    ∀ row ∈ ts.childTags, ¬ row.IsCopyIn b id t content) ∧
  c.content.kind = content.kind ∧ new c.content.id

end Tables

/-- A child tag of which only the changes and the time may be others. -/
def ChildTag.Rewritten (c c' : ChildTag) : Prop := ∃ changes time, c' = c.withChanges changes time

/-- A master tag of which only the locks and the time may be others. -/
def MasterTag.Relocked (m m' : MasterTag) : Prop :=
  ∃ r time, m' = { m with restrictions := r, updatedAt := time }

/-- The rows that a request may add or change, by the tables that it finds. What it adds has a new
identifier. -/
def Request.reach (b : Rulebook) (new : Uuid → Prop) (ts : Tables) : Request → Reaches
  | makeBlueprint course =>
    { templates.adds := fun t =>
        t.courseId = course ∧ (∀ row ∈ ts.templates, row.courseId ≠ course) ∧ new t.id }
  | subscribe master child =>
    { subscriptions.adds := fun sub =>
        (∃ t ∈ ts.templateOf? master, sub.templateId = t.id) ∧ sub.childCourseId = child ∧
          (∀ row ∈ ts.subscriptions, row.samePairing sub = false) ∧ new sub.id }
  | setLocks course content _ _ =>
    { masterTags :=
      { adds := ts.addsMaster b (ts.templateOf? course) content
        changes := fun m m' => m.Relocked m' ∧ ∃ t ∈ ts.templateOf? course,
          m.migrationId = t.migrationId b.settings.marker content } }
  | sync id master _ =>
    { masterTags.adds := ts.addsMaster b (ts.followed? id) master
      childTags :=
      { adds := ts.addsCopy b new id (ts.followed? id) master
        changes := fun c c' => c.Rewritten c' ∧ ∃ t ∈ ts.followed? id, c.IsCopyIn b id t master } }
  | edit content _ _ _ =>
    { childTags.changes := fun c c' => c.Rewritten c' ∧ c.content = content }
  | _ => {}

/-! ## Commands -/

namespace Command

variable {b : Rulebook} {s s' : Store} {ts : Tables}

/-- The tables that are left after a request was made, and what was touched. -/
def Touched (b : Rulebook) (s : Store) (ts : Tables) (r : Request) (s' : Store) : Prop :=
  ∃ ts', s'.stored = .of ts' ∧ (r.reach b (s.supply.Drew s'.supply) ts).Touches ts ts'

theorem Touched.of_stored_eq {r : Request} (hstored : s.stored = .of ts)
    (hsame : s'.stored = s.stored) : Touched b s ts r s' :=
  ⟨ts, hsame.trans hstored, .refl _ ts⟩

theorem touched_makeBlueprint (hs : s.Ready) (hstored : s.stored = .of ts) {course : Uuid}
    {answer : Result Report} (h : (makeBlueprint course).run s = (answer, s')) :
    Touched b s ts (.makeBlueprint course) s' := by
  rw [makeBlueprint] at h
  rcases Action.run_bind_ends h with ⟨e, hlook, -⟩ | ⟨found, s₁, hlook, h⟩
  · rw [Store.run_templateOf?] at hlook
    obtain ⟨-, rfl⟩ := Prod.mk.inj hlook
    exact .of_stored_eq hstored rfl
  rw [Store.run_templateOf?] at hlook
  obtain ⟨-, rfl⟩ := Prod.mk.inj hlook
  cases found with
  | some t =>
    obtain ⟨-, rfl⟩ := Prod.mk.inj h
    exact .of_stored_eq hstored rfl
  | none =>
    obtain ⟨r, hmade⟩ : ∃ r, (Store.findOrCreateTemplate course).run s = (r, s') := by
      rcases Action.run_bind_ends h with ⟨e, hmade, -⟩ | ⟨t, s₁, hmade, h⟩
      · exact ⟨_, hmade⟩
      · obtain ⟨-, rfl⟩ := Prod.mk.inj h
        exact ⟨_, hmade⟩
    obtain ⟨-, -, hsame | ⟨-, rows, t, hrows, hnew, hcourse, hdrew, hadded⟩⟩ :=
      Store.of_findOrCreateTemplate hs.clock hmade
    · exact .of_stored_eq hstored hsame
    · rw [hstored] at hrows hadded
      obtain rfl := Except.ok.inj hrows
      exact ⟨{ ts with templates := ts.templates ++ [t] }, hadded,
        .added ⟨hcourse, hnew, hdrew⟩, .same, .same, .same⟩

theorem touched_subscribe (hs : s.Ready) (hstored : s.stored = .of ts) {master child : Uuid}
    {answer : Result Report} (h : (subscribe master child).run s = (answer, s')) :
    Touched b s ts (.subscribe master child) s' := by
  unfold subscribe at h
  split at h
  · obtain ⟨-, rfl⟩ := Prod.mk.inj h
    exact .of_stored_eq hstored rfl
  rcases Action.run_bind_ends h with ⟨e, ht, -⟩ | ⟨t, s₁, ht, h⟩
  · rw [run_templateOf] at ht
    obtain ⟨-, rfl⟩ := Prod.mk.inj ht
    exact .of_stored_eq hstored rfl
  obtain ⟨rfl, templates, htemplates, hfind⟩ := of_templateOf ht
  rw [hs.shown, hstored] at htemplates
  obtain rfl := Except.ok.inj htemplates
  obtain ⟨r, hmade⟩ : ∃ r, (Store.findOrCreateSubscription t.id child).run s = (r, s') := by
    rcases Action.run_bind_ends h with ⟨e, hmade, -⟩ | ⟨sub, s₁, hmade, h⟩
    · exact ⟨_, hmade⟩
    · obtain ⟨-, rfl⟩ := Prod.mk.inj h
      exact ⟨_, hmade⟩
  obtain ⟨-, -, hsame | ⟨-, rows, sub, hrows, hnew, hfollows, hchild, hdrew, hadded⟩⟩ :=
    Store.of_findOrCreateSubscription hmade
  · exact .of_stored_eq hstored hsame
  · rw [hstored] at hrows hadded
    obtain rfl := Except.ok.inj hrows
    exact ⟨{ ts with subscriptions := ts.subscriptions ++ [sub] }, hadded,
      .same, .added ⟨⟨t, hfind, hfollows⟩, hchild, hnew, hdrew⟩, .same, .same⟩

theorem touched_setLocks (hs : s.Ready) (hstored : s.stored = .of ts) {course : Uuid}
    {content : ContentKey} {locks : List Lock} {on : Bool} {answer : Result Report}
    (h : (setLocks b course content locks on).run s = (answer, s')) :
    Touched b s ts (.setLocks course content locks on) s' := by
  cases setLocks_ends hs h with
  | failed hlater hopen hsame => exact .of_stored_eq hstored hsame
  | @saved t rows found old time _ _ hlater hopen hkind ht hrows hfound hold hsaved =>
    obtain ⟨-, templates, htemplates, hfind⟩ := of_templateOf ht
    rw [hs.shown, hstored] at htemplates
    obtain rfl := Except.ok.inj htemplates
    rw [hstored] at hrows hsaved
    obtain rfl := Except.ok.inj hrows
    generalize locks.foldl (fun r l => r.set l on) old.restrictions = r at hsaved
    let tag : MasterTag := { old with restrictions := r, updatedAt := time }
    refine ⟨{ ts with
      masterTags := Tables.upsert (fun row => row.migrationId = old.migrationId) tag ts.masterTags },
      hsaved, .same, .same, ?_, .same⟩
    rcases hold with rfl | ⟨rfl, htemplate, hcontent, hid, -⟩
    · have hid : old.migrationId = t.migrationId b.settings.marker content := by
        simpa using List.find?_some hfound
      rw [← hid] at hfound
      rw [Tables.upsert_of_find? hfound]
      exact Tables.touches_replaceFirst hfound ⟨⟨r, time, rfl⟩, t, hfind, hid⟩
    · have hnew : ∀ row ∈ ts.masterTags, row.migrationId ≠ old.migrationId := by
        intro row hrow heq
        rw [hid] at heq
        exact List.find?_eq_none.1 hfound row hrow (decide_eq_true heq)
      rw [Tables.upsert_of_none fun row hrow => decide_eq_false (hnew row hrow)]
      exact .added ⟨⟨t, hfind, htemplate, hid, hcontent⟩, hnew⟩

/-! ## Saving copies -/

/-- Setting the changes of a child tag touches that tag only. -/
theorem touches_of_setsChanges {tag : ChildTag} {changes : NameSet} {st : Stored}
    (reach : Reach ChildTag) (h : (Stored.of ts).SetsChanges tag changes st)
    (hrow : ∀ tag', tag.Rewritten tag' → reach.changes tag tag') :
    ∃ rows, st = .of { ts with childTags := rows } ∧ reach.Touches ts.childTags rows := by
  obtain ⟨rows, time, hrows, hheld, rfl⟩ := h
  obtain rfl := Except.ok.inj hrows
  exact ⟨_, rfl, Tables.touches_replaceFirst hheld (hrow _ ⟨changes, time, rfl⟩)⟩

/-- The save of an edited copy sets the changes of its tag at most. -/
theorem touched_of_edited (hs : s.Ready) (hstored : s.stored = .of ts) {tag : ChildTag}
    {texts : List String} {delete : Bool} {changes : Changes} {saved : Result SaveOutcome} {d : Desk}
    (hsave : (b.save (if changes.system then .system else .user) .noop).run
      ⟨s, editedItem tag changes, [], []⟩ = (saved, d)) :
    Touched b s ts (.edit tag.content texts delete changes.system) d.store := by
  have hc : (if changes.system then Context.system else Context.user).migration = none := by
    cases changes.system with
    | true => rfl
    | false => rfl
  have hpermits := Rulebook.permits_save (d := ⟨s, editedItem tag changes, [], []⟩) hs.clock hsave
  generalize hst : d.store.stored = st at hpermits
  cases hpermits with
  | unchanged => exact .of_stored_eq hstored hst
  | created hc' => rw [hc] at hc'; cases hc'
  | removed hc' => rw [hc] at hc'; cases hc'
  | added _ htracked howner hgoverned hset =>
    have hcontent := howner.trans (tagOwner_editedItem tag changes)
    simp only [hstored] at hset
    obtain ⟨rows, hrows, htouches⟩ := touches_of_setsChanges
      ((Request.edit tag.content texts delete changes.system).reach b
        (s.supply.Drew d.store.supply) ts).childTags hset fun _ h => ⟨h, hcontent⟩
    exact ⟨_, hst.trans hrows, .same, .same, .same, htouches⟩

theorem touched_edit (hs : s.Ready) (hstored : s.stored = .of ts) {content : ContentKey}
    {texts : List String} {delete : Bool} {changes : Changes} {answer : Result Report}
    (h : (edit b content changes).run s = (answer, s')) :
    Touched b s ts (.edit content texts delete changes.system) s' := by
  cases edit_ends hs h with
  | stopped => exact .of_stored_eq hstored rfl
  | failed htag hsave =>
    obtain rfl := Store.content_of_childTag? htag
    exact touched_of_edited hs hstored hsave
  | answered htag hsave =>
    obtain rfl := Store.content_of_childTag? htag
    exact touched_of_edited hs hstored hsave

/-! ## Syncing -/

theorem Tracked.later {t : Template} {content : ContentKey} {r : Result MasterTag}
    (h : Tracked b s t content r s') : s.supply.Later s'.supply := by
  cases h with
  | failed hlater => exact hlater
  | found halike => exact .of_eq halike.supply
  | made hlater => exact hlater

/-- Tracking content touches its master tag only, and that by adding it. -/
theorem Tracked.touches {t : Template} {content : ContentKey} {r : Result MasterTag}
    (h : Tracked b s t content r s') (hstored : s.stored = .of ts) (reach : Reach MasterTag)
    (hadds : ∀ m, m.IsFor b t content → (∀ row ∈ ts.masterTags, row.migrationId ≠ m.migrationId) →
      reach.adds m) :
    ∃ rows, s'.stored = .of { ts with masterTags := rows } ∧ reach.Touches ts.masterTags rows := by
  cases h with
  | failed hlater hopen hsame hheld => exact ⟨ts.masterTags, hsame.trans hstored, .same⟩
  | found halike hopen hrows htag hheld => exact ⟨ts.masterTags, halike.stored.trans hstored, .same⟩
  | made hlater hopen hrows hnew htemplate hcontent hid hrestrictions hmade hheld =>
    rw [hstored] at hrows hmade
    obtain rfl := Except.ok.inj hrows
    exact ⟨_, hmade, .added (hadds _ ⟨htemplate, hid, hcontent⟩ fun row hrow => hid ▸ hnew row hrow)⟩

/-- Making a copy leaves the rows that there were, or has added the tag of a copy under a new
identifier. -/
theorem added_of_createCopy {m : Migration} {kind : Kind} {id : String} {assignments : List Assignment}
    {made : Result ChildTag} (hs : s.Ready) (hstored : s.stored = .of ts)
    (hmarks : b.settings.marks id = true)
    (h : (createCopy b m kind id assignments).run s = (made, s')) :
    s'.stored = s.stored ∨ ∃ tag, tag.subscriptionId = m.subscription.id ∧ tag.migrationId = some id ∧
      tag.content.kind = kind ∧ s.supply.Drew s'.supply tag.content.id ∧
      s'.stored = .of { ts with childTags := ts.childTags ++ [tag] } := by
  rw [Task.createCopy_eq b m kind hmarks, Task.makeCopy, bind_assoc,
    Action.run_bind_ok (Store.run_newId s), bind_assoc] at h
  obtain ⟨r, hfound⟩ : ∃ r, (Store.findOrCreateChildTag m.subscription.id
      ⟨kind, s.supply.ids s.supply.idsUsed⟩ (some id)).run s.afterId = (r, s') := by
    rcases Action.run_bind_ends h with ⟨e, hfound, -⟩ | ⟨tag, s₁, hfound, h⟩
    · exact ⟨_, hfound⟩
    · rw [pure_bind, run_savedTag] at h
      obtain ⟨-, rfl⟩ := Prod.mk.inj h
      exact ⟨_, hfound⟩
  have hclock : s.afterId.supply.ShowsDates := hs.clock
  have hspec := Store.findOrCreateChildTag_spec hclock hfound
  rcases hspec.ends with ⟨e, -, hsame⟩ | ⟨tag, -, -, -, hsame | ⟨rows, hrows, -, hsub, hcontent, hid,
    -, hadded⟩⟩
  · exact .inl hsame
  · exact .inl hsame
  · rw [Store.stored_afterId, hstored] at hrows hadded
    obtain rfl := Except.ok.inj hrows
    refine .inr ⟨tag, hsub, hid, by rw [hcontent], ?_, hadded⟩
    rw [hcontent]
    exact ⟨s.supply.idsUsed, Nat.le_refl _, hspec.supply.idsUsed, rfl⟩

/-- Importing a copy that is held leaves the rows that there were, or has set the changes of its tag. -/
theorem set_of_saveImported {m : Migration} {existing : ChildTag} {assignments : List Assignment}
    {saved : Result (SaveReport × Item)} (hs : s.Ready)
    (hheld : s.stored.childTag? existing.content = .ok (some existing))
    (h : (saveImported b m (copyWanted existing assignments)).run s = (saved, s')) :
    s'.stored = s.stored ∨ ∃ changes, s.stored.SetsChanges existing changes s'.stored := by
  obtain ⟨outcome, d, hsave, rfl⟩ := run_saveImported_ends h
  have hkey := key_copyWanted existing assignments
  have hpermits := Rulebook.permits_save (d := ⟨s, copyWanted existing assignments, [], []⟩)
    hs.clock hsave
  generalize hst : d.store.stored = st at hpermits ⊢
  cases hpermits with
  | unchanged => exact .inl rfl
  | created hc hcopy hrows hnone =>
    rw [hkey] at hnone
    rw [Store.childTag?_of_rows hrows, hnone] at hheld
    cases hheld
  | removed hc hcontent hoverruled hset =>
    obtain ⟨rows, time, hrows, hfind, rfl⟩ := hset
    rw [hcontent, hkey] at hfind
    rw [Store.childTag?_of_rows hrows, hfind] at hheld
    obtain rfl := Option.some.inj (Except.ok.inj hheld)
    exact .inr ⟨_, rows, time, hrows, hfind, rfl⟩
  | added hc => cases hc

/-- What a sync follows is the template that it looked up. -/
theorem followed?_of_run (hshown : s.seen = s.stored) (hstored : s.stored = .of ts) {id : Uuid}
    {sub : Subscription} {t : Template} (hsub : (subscription id).run s = (.ok sub, s))
    (ht : (template sub.templateId).run s = (.ok t, s)) :
    sub.id = id ∧ ts.followed? id = some t := by
  obtain ⟨-, subscriptions, hsubscriptions, hfindSub⟩ := of_subscription hsub
  obtain ⟨-, templates, htemplates, hfind⟩ := of_template ht
  rw [hshown, hstored] at hsubscriptions htemplates
  obtain rfl := Except.ok.inj hsubscriptions
  obtain rfl := Except.ok.inj htemplates
  refine ⟨by simpa using List.find?_some hfindSub, ?_⟩
  rw [Tables.followed?, Tables.subscription?, hfindSub]
  exact hfind

/-- Tables after a sync has tracked its content. -/
def TracksOnly (b : Rulebook) (ts : Tables) (id : Uuid) (master : ContentKey) (s₁ : Store) : Prop :=
  ∃ rows, s₁.stored = .of { ts with masterTags := rows } ∧
    ({ adds := ts.addsMaster b (ts.followed? id) master } : Reach MasterTag).Touches ts.masterTags rows

section Sync

variable {id : Uuid} {master : ContentKey} {texts : List String} {assignments : List Assignment}
  {sub : Subscription} {t : Template} {masterTag : MasterTag} {tags : List ChildTag} {m : Migration}
  {s₁ : Store}

theorem tracksOnly_of_run (hready : s.Ready) (hstored : s.stored = .of ts) {r : Result MasterTag}
    (hsub : (subscription id).run s = (.ok sub, s))
    (ht : (template sub.templateId).run s = (.ok t, s))
    (htracked : (trackedMasterTag b t master).run s = (r, s₁)) : TracksOnly b ts id master s₁ :=
  (tracked hready htracked).touches hstored _ fun _ hm hnew =>
    ⟨⟨t, (followed?_of_run hready.shown hstored hsub ht).2, hm⟩, hnew⟩

theorem TracksOnly.touched (h : TracksOnly b ts id master s₁) (hsame : s'.stored = s₁.stored) :
    Touched b s ts (.sync id master texts) s' := by
  obtain ⟨rows, hrows, htouches⟩ := h
  exact ⟨_, hsame.trans hrows, .same, .same, htouches, .same⟩

/-- The copies that a sync finds in its subscription are those that were held before it. -/
theorem SyncBegun.mem_held (h : SyncBegun b s id master sub t masterTag tags m s₁) (hready₁ : s₁.Ready)
    {rows : List MasterTag} (hrows : s₁.stored = .of { ts with masterTags := rows }) (c : ChildTag) :
    c ∈ tags ↔ c ∈ ts.childTags ∧ c.subscriptionId = sub.id := by
  obtain ⟨copies, hcopies, hmem⟩ := h.mem_tags hready₁.shown
  rw [hrows] at hcopies
  obtain rfl := Except.ok.inj hcopies
  exact hmem c

/-- A sync that finds no copy adds one at most. -/
theorem SyncBegun.touched_of_copied (h : SyncBegun b s id master sub t masterTag tags m s₁)
    (hready : s.Ready) (hstored : s.stored = .of ts) {made : Result ChildTag}
    (hnone : (tags.find? fun tag =>
      tag.migrationId = some (t.migrationId b.settings.marker master)) = none)
    (hmade : (createCopy b m master.kind (t.migrationId b.settings.marker master) assignments).run s₁ =
      (made, s')) : Touched b s ts (.sync id master texts) s' := by
  obtain ⟨hid, ht⟩ := followed?_of_run hready.shown hstored h.subscription h.template
  have htracked := Command.tracked hready h.tracked
  have hready₁ : s₁.Ready :=
    ⟨htracked.later.showsDates hready.clock, Store.seen_of_isOpen htracked.of_ok.1⟩
  obtain ⟨rows, hrows, htouches⟩ :=
    tracksOnly_of_run hready hstored h.subscription h.template h.tracked
  rcases added_of_createCopy hready₁ hrows (b.settings.marks_migrationId _ _) hmade with hsame |
    ⟨tag, hsub, hmigrationId, hkind, hdrew, hadded⟩
  · exact ⟨_, hsame.trans hrows, .same, .same, htouches, .same⟩
  · refine ⟨_, hadded, .same, .same, htouches, .added ⟨⟨t, ht, ⟨?_, hmigrationId⟩, ?_⟩, hkind, ?_⟩⟩
    · rw [hsub, (of_load h.load).2, hid]
    · intro row hrow hcopy
      have hlisted := (h.mem_held hready₁ hrows row).2 ⟨hrow, hcopy.subscriptionId.trans hid.symm⟩
      exact List.find?_eq_none.1 hnone row hlisted (decide_eq_true hcopy.migrationId)
    · exact hdrew.of_later htracked.later

/-- A sync that finds a copy sets the changes of its tag at most. -/
theorem SyncBegun.touched_of_resynced (h : SyncBegun b s id master sub t masterTag tags m s₁)
    (hs : s.Orderly b) (hstored : s.stored = .of ts) {existing : ChildTag}
    {saved : Result (SaveReport × Item)}
    (hexisting : (tags.find? fun tag =>
      tag.migrationId = some (t.migrationId b.settings.marker master)) = some existing)
    (hsaved : (saveImported b m (copyWanted existing assignments)).run s₁ = (saved, s')) :
    Touched b s ts (.sync id master texts) s' := by
  have hready := hs.ready
  obtain ⟨hid, ht⟩ := followed?_of_run hready.shown hstored h.subscription h.template
  have htracked := Command.tracked hready h.tracked
  have hready₁ : s₁.Ready :=
    ⟨htracked.later.showsDates hready.clock, Store.seen_of_isOpen htracked.of_ok.1⟩
  obtain ⟨rows, hrows, htouches⟩ :=
    tracksOnly_of_run hready hstored h.subscription h.template h.tracked
  obtain ⟨hrow, hours⟩ := (h.mem_held hready₁ hrows existing).1 (List.mem_of_find?_eq_some hexisting)
  obtain ⟨ts', hstored', hkeyed⟩ := hs.keyed
  obtain rfl := Stored.of_inj (hstored.symm.trans hstored')
  have hheld : s₁.stored.childTag? existing.content = .ok (some existing) := by
    rw [hrows]
    exact congrArg Except.ok ((Tables.find?_eq_some_iff hkeyed.contents).2 ⟨hrow, rfl⟩)
  rcases set_of_saveImported hready₁ hheld hsaved with hsame | ⟨changes, hset⟩
  · exact ⟨_, hsame.trans hrows, .same, .same, htouches, .same⟩
  · rw [hrows] at hset
    obtain ⟨copies, hcopies, hchanged⟩ := touches_of_setsChanges
      ((Request.sync id master texts).reach b (s.supply.Drew s'.supply) ts).childTags hset
      fun _ hrewritten => ⟨hrewritten, t, ht, hours.trans hid, by simpa using List.find?_some hexisting⟩
    exact ⟨_, hcopies, .same, .same, htouches, hchanged⟩

theorem touched_sync (hs : s.Orderly b) (hstored : s.stored = .of ts) {answer : Result Report}
    (h : (sync b id master assignments).run s = (answer, s')) :
    Touched b s ts (.sync id master texts) s' := by
  cases sync_ends h with
  | stopped => exact .of_stored_eq hstored rfl
  | untracked hkind hsub ht htracked =>
    exact (tracksOnly_of_run hs.ready hstored hsub ht htracked).touched rfl
  | unread hkind hsub ht htracked =>
    exact (tracksOnly_of_run hs.ready hstored hsub ht htracked).touched rfl
  | copied hbegun hnone hmade => exact hbegun.touched_of_copied hs.ready hstored hnone hmade
  | resynced hbegun hexisting hsaved => exact hbegun.touched_of_resynced hs hstored hexisting hsaved

end Sync

end Command

/-! ## Requests -/

open Command in
/-- Whatever is requested, and whether it is answered or fails, one row of each table at most is added
or changed, and that within the reach of the request. -/
theorem Request.touches_run {b : Rulebook} {s s' : Store} {ts : Tables} (hs : s.Orderly b)
    (hstored : s.stored = .of ts) (r : Request) {answer : Result Report}
    (h : (r.run b).run s = (answer, s')) :
    ∃ ts', s'.stored = .of ts' ∧ (r.reach b (s.supply.Drew s'.supply) ts).Touches ts ts' := by
  have hlooks : ∀ {r : Request} {x : Action Store Report}, Action.Keeps s.Alike x →
      x.run s = (answer, s') → Touched b s ts r s' :=
    fun hx hrun => .of_stored_eq hstored (hx.of_run hrun (.refl s)).stored
  cases r with
  | makeBlueprint course => exact touched_makeBlueprint hs.ready hstored h
  | subscribe master child => exact touched_subscribe hs.ready hstored h
  | sync subscription master texts =>
    rcases Action.run_bind_ends h with ⟨e, hread, -⟩ | ⟨assignments, s₁, hread, h⟩
    · rw [Action.run_liftM] at hread
      obtain ⟨-, rfl⟩ := Prod.mk.inj hread
      exact Touched.of_stored_eq hstored rfl
    · obtain ⟨-, rfl⟩ := Action.run_liftM_eq_ok.1 hread
      exact touched_sync hs hstored h
  | setLocks course content locks on => exact touched_setLocks hs.ready hstored h
  | showContent course content =>
    exact hlooks (keeps_showContent Store.alike_masterTagsWith course content) h
  | inspect content => exact hlooks (keeps_inspect Store.alike_masterTagsWith content) h
  | edit content texts delete system =>
    rcases Action.run_bind_ends h with ⟨e, hread, -⟩ | ⟨assignments, s₁, hread, h⟩
    · rw [Action.run_liftM] at hread
      obtain ⟨-, rfl⟩ := Prod.mk.inj hread
      exact Touched.of_stored_eq hstored rfl
    · obtain ⟨-, rfl⟩ := Action.run_liftM_eq_ok.1 hread
      exact touched_edit hs.ready hstored h
  | status subscription => exact hlooks (keeps_status subscription) h
  | preview content => exact hlooks (keeps_preview Store.alike_masterTagsWith content) h
  | listSchemas kind? => exact hlooks (.pure _) h
  | showConfig => exact hlooks (.pure _) h

end CourseBlueprint
