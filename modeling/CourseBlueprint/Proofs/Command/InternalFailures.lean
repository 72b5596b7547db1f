import CourseBlueprint.Proofs.Concurrency.Calls
import CourseBlueprint.Proofs.Save.Bystanders
import CourseBlueprint.Proofs.Save.UserSaves

/-!
# Failures that cannot happen

A sync fails if the import of its copy is rejected, or if the copy has no child tag once it is saved,
and an edit may tell that the tag of its copy is gone. On a store whose calls succeed, with one row at
most under each key, none of this happens. A sync fails only for a folder, or because there is no
subscription or no template, and else answers the tag of the copy (`Command.SyncAnswers`). An edit fails
only if the content is no copy or if nothing is to change (`Command.EditAnswers`).
-/

namespace CourseBlueprint

/-- A store whose calls succeed, which holds tables with one master tag at most under a migration
identifier and one child tag at most for a piece of content. The next identifiers are new. -/
structure Store.Dependable (s : Store) (ts : Tables) : Prop where
  holds : s.Holds ⟨s.supply, ts⟩
  clock : s.supply.ShowsDates
  migrationIds : (ts.masterTags.map MasterTag.migrationId).Nodup
  contents : (ts.childTags.map ChildTag.content).Nodup
  spares : s.supply.Spares 2 (ts.childTags.map fun tag => tag.content.id)

namespace Command

variable {b : Rulebook} {s s' s₁ : Store} {ts : Tables} {rows : List ChildTag} {m : Migration}

/-! ## Looking up -/

theorem run_subscription_of_seen (hseen : s.seen = .of ts) (id : Uuid) :
    (subscription id).run s = (Result.ofOption (.noSubscription id)
      (ts.subscriptions.find? fun sub => sub.id = id), s) := by
  rw [run_subscription, hseen]
  rfl

theorem run_template_of_seen (hseen : s.seen = .of ts) (id : Uuid) :
    (template id).run s = (Result.ofOption (.noTemplate id)
      (ts.templates.find? fun t => t.id = id), s) := by
  rw [run_template, hseen]
  rfl

/-! ## Tracking -/

theorem determined_trackedMasterTag (t : Template) (content : ContentKey) :
    Store.Determined (fun _ => True) (trackedMasterTag b t content) := by
  refine (Store.determined_masterTag? _).bind fun found _ => ?_
  cases found with
  | some tag => exact .pure trivial
  | none =>
    have hnew : Store.Determined MasterTag.IsDated
        (Store.newMasterTag t content (t.migrationId b.settings.marker content)) :=
      Store.determined_newId.bind fun _ _ => Store.determined_now.bind fun _ htime =>
        .pure ⟨htime, htime⟩
    exact hnew.bind fun _ htag => (Store.determined_saveMasterTag htag).bind fun _ _ => .pure trivial

/-- Tracking blueprint content draws the identifier of its master tag at most. -/
theorem draws_trackedMasterTag (t : Template) (content : ContentKey) :
    Store.Draws 1 (trackedMasterTag b t content) := by
  refine .next (.next (Store.draws_onPlace _ _) fun _ => Store.draws_pure _) fun found => ?_
  cases found with
  | some tag => exact Store.draws_pure tag
  | none =>
    have hnew : Store.Draws 1
        (Store.newMasterTag t content (t.migrationId b.settings.marker content)) :=
      Store.draws_newId.bind fun _ => Store.draws_now.next fun _ => Store.draws_pure (k := 0) _
    exact hnew.bind (k := 0) fun tag => .next (Store.draws_onPlace _ _) fun _ => Store.draws_pure tag

/-! ## Copies -/

/-- Where writing works, importing what a command has made of a copy is never refused. -/
theorem saveImported_answers (hclock : s.supply.ShowsDates) (hworks : s.Works)
    (hrows : s.stored.childTags = .ok rows) (m : Migration) (i : Item) :
    ∃ saved s', (saveImported b m i).run s = (.ok saved, s') := by
  have hwrite : Persist.noop (b.importedItem m i (b.tagFor m rows i)) = .ok () := rfl
  obtain ⟨e, s', hrun, -⟩ := Rulebook.exists_importOne hclock hworks hrows hwrite
  obtain ⟨tag, s₁, -, -, -, rfl⟩ := Rulebook.run_importOne_eq_ok.1 hrun
  refine ⟨(⟨.unrestricted, (b.importPlan m i tag).outcome, none⟩, (b.ending m i tag).item), s', ?_⟩
  rw [saveImported_eq_importOne, Action.run_bind_ok hrun]
  rfl

/-- A copy of new content is made, and answered with its tag: its migration identifier passes as that of
a copy. -/
theorem createCopy_answers {kind : Kind} {id : String} (hclock : s.supply.ShowsDates)
    (hworks : s.Works) (hrows : s.stored.childTags = .ok rows) (hmarks : b.settings.marks id = true)
    (hnew : ∀ tag ∈ rows, tag.content ≠ ⟨kind, s.supply.ids s.supply.idsUsed⟩) (m : Migration)
    (assignments : List Assignment) :
    ∃ tag s', (createCopy b m kind id assignments).run s = (.ok tag, s') ∧
      tag.migrationId = some id ∧ tag.subscriptionId = m.subscription.id := by
  have hclock' : s.afterId.supply.ShowsDates := (Store.later_afterId s).showsDates hclock
  have hrows' : s.afterId.stored.childTags = .ok rows := hrows
  have hworks' : s.afterId.Works := hworks
  obtain ⟨saved, s', hsaved⟩ := saveImported_answers (b := b) hclock' hworks' hrows' m
    (newCopy ⟨kind, s.supply.ids s.supply.idsUsed⟩ id assignments)
  obtain ⟨tag, hfound⟩ := foundOrCreated_of_saveImported hclock' hmarks hsaved
  obtain ⟨hopen, hheld⟩ := hfound.held
  refine ⟨tag, s', ?_, ?_⟩
  · rw [createCopy, Action.run_bind_ok (Store.run_newId s), Action.run_bind_ok hsaved, run_savedTag,
      Store.seen_of_isOpen hopen, hheld]
    rfl
  · rcases hfound.ends with ⟨e, he, -⟩ | ⟨tag', htag, -, -, hsame | hmade⟩
    · cases he
    · -- no tag was there for new content
      rw [hsame, Store.childTag?_of_rows hrows'] at hheld
      have hfind := Except.ok.inj hheld
      exact absurd (Tables.content_of_childTagIn hfind) (hnew tag (List.mem_of_find?_eq_some hfind))
    · cases htag
      obtain ⟨-, -, -, hsubscription, -, hid, -, -⟩ := hmade
      exact ⟨hid, hsubscription⟩

/-- A copy that is there is written over, and its tag is still there afterwards. -/
theorem resync_answers {tag : ChildTag} (hclock : s.supply.ShowsDates) (hworks : s.Works)
    (hopen : s.isOpen = true) (htag : s.stored.childTag? tag.content = .ok (some tag)) (m : Migration)
    (assignments : List Assignment) :
    ∃ saved s' changes time, (saveImported b m (copyWanted tag assignments)).run s = (.ok saved, s') ∧
      s'.seen.childTag? tag.content = .ok (some (tag.withChanges changes time)) := by
  obtain ⟨rows, hrows, -⟩ := Store.childTag?_eq_some htag
  obtain ⟨saved, s', hsaved⟩ := saveImported_answers (b := b) hclock hworks hrows m
    (copyWanted tag assignments)
  have hevolves : s.Evolves s' := (evolves_saveImported hclock m _).of_run hsaved (.refl s)
  obtain ⟨changes, time, htag'⟩ := hevolves.steps.childTag? htag
  exact ⟨saved, s', changes, time, hsaved, by rw [Store.seen_of_isOpen (hevolves.isOpen hopen), htag']⟩

/-! ## Syncs -/

/-- What a sync answers on tables that can be relied on. -/
inductive SyncAnswers (b : Rulebook) (ts : Tables) (id : Uuid) (master : ContentKey) :
    Result Report → Prop
  | folder (hkind : master.kind = .folder) : SyncAnswers b ts id master (.error (.notSynced .folder))
  | noSubscription (hkind : master.kind ≠ .folder) (hnone : ∀ sub ∈ ts.subscriptions, sub.id ≠ id) :
      SyncAnswers b ts id master (.error (.noSubscription id))
  | noTemplate {sub : Subscription} (hkind : master.kind ≠ .folder) (hsub : sub ∈ ts.subscriptions)
      (hid : sub.id = id) (hnone : ∀ t ∈ ts.templates, t.id ≠ sub.templateId) :
      SyncAnswers b ts id master (.error (.noTemplate sub.templateId))
  | synced {sub : Subscription} {t : Template} {tag : ChildTag} {report : Report}
      (hkind : master.kind ≠ .folder) (hsub : sub ∈ ts.subscriptions) (hid : sub.id = id)
      (ht : t ∈ ts.templates) (hfollows : t.id = sub.templateId) (hreport : report.childTags = [tag])
      (hmigration : tag.migrationId = some (t.migrationId b.settings.marker master))
      (hsubscription : tag.subscriptionId = id) : SyncAnswers b ts id master (.ok report)

theorem allowedInBlueprint_iff {kind : Kind} : kind.allowedInBlueprint = true ↔ kind ≠ .folder := by
  cases kind <;> simp [Kind.allowedInBlueprint]

/-- A sync that has begun and found no copy is what becomes of making one. -/
theorem SyncBegun.run_copy {id : Uuid} {master : ContentKey} {assignments : List Assignment}
    {sub : Subscription} {t : Template} {masterTag : MasterTag} {tags : List ChildTag} {tag : ChildTag}
    (h : SyncBegun b s id master sub t masterTag tags m s₁)
    (hnone : (tags.find? fun tag =>
      tag.migrationId = some (t.migrationId b.settings.marker master)) = none)
    (hmade : (createCopy b m master.kind (t.migrationId b.settings.marker master) assignments).run s₁ =
      (.ok tag, s')) :
    (sync b id master assignments).run s =
      (.ok (Report.say { masterTags := [masterTag], childTags := [tag] } .success
        ("Synced " ++ master.text ++ " to course " ++ sub.childCourseId.hyphenated ++ " as " ++
          tag.content.text)), s') := by
  have hallowed : (!master.kind.allowedInBlueprint) = false := by rw [h.kind]; rfl
  rw [sync, hallowed]
  simp only [Bool.false_eq_true, if_false]
  rw [Action.run_bind_ok h.subscription, Action.run_bind_ok h.template,
    Action.run_bind_ok h.tracked, Action.run_bind_ok h.tags, Action.run_bind_ok h.load]
  simp only [hnone]
  rw [Action.run_bind_ok hmade]
  rfl

section Sync

variable (hs : s.Dependable ts)
include hs

/-- What a sync has found once its content is tracked: a store whose calls still succeed, with the same
child tags, and a new identifier to draw. -/
theorem tracked_answers (t : Template) (content : ContentKey) :
    ∃ masterTag s₁ ts₁, (trackedMasterTag b t content).run s = (.ok masterTag, s₁) ∧
      s₁.Works ∧ s₁.supply.ShowsDates ∧ s₁.isOpen = true ∧ s₁.stored = .of ts₁ ∧
      ts₁.childTags = ts.childTags ∧
      ∀ tag ∈ ts.childTags, tag.content.id ≠ s₁.supply.ids s₁.supply.idsUsed := by
  obtain ⟨masterTag, -, ⟨supply, ts₁⟩, -, hall⟩ :=
    determined_trackedMasterTag (b := b) t content ⟨s.supply, ts⟩ ⟨hs.clock, hs.migrationIds⟩
  obtain ⟨s₁, hrun, hholds⟩ := hall s hs.holds
  obtain ⟨hevolves, hsame, hopen, -⟩ := of_trackedMasterTag hs.clock hrun
  have htags : ts₁.childTags = ts.childTags := by
    rw [hholds.stored, hs.holds.stored] at hsame
    exact Except.ok.inj hsame
  have hdrawn : s₁.supply.idsUsed ≤ s.supply.idsUsed + 1 := by
    have hdraws := draws_trackedMasterTag (b := b) t content s
    rw [hrun] at hdraws
    exact hdraws
  refine ⟨masterTag, s₁, ts₁, hrun, hholds.works, hevolves.supply.showsDates hs.clock, hopen,
    hholds.stored, htags, fun tag htag hid => ?_⟩
  rw [hevolves.supply.ids] at hid
  have hlow := hevolves.supply.idsUsed
  exact hs.spares.unused _ hlow (by omega) (List.mem_map.2 ⟨tag, htag, hid⟩)

/-- A sync of content that can be in a blueprint, for a subscription that follows a template, is
answered with the tag of its copy. -/
theorem sync_answers_of_follows {id : Uuid} {master : ContentKey} {sub : Subscription} {t : Template}
    (hkind : master.kind.allowedInBlueprint = true)
    (hsub : (subscription id).run s = (.ok sub, s))
    (ht : (template sub.templateId).run s = (.ok t, s)) (assignments : List Assignment) :
    ∃ report s' tag, (sync b id master assignments).run s = (.ok report, s') ∧
      report.childTags = [tag] ∧
      tag.migrationId = some (t.migrationId b.settings.marker master) ∧ tag.subscriptionId = sub.id := by
  obtain ⟨masterTag, s₁, ts₁, htracked, hworks, hclock, hopen, hstored, hsame, hnew⟩ :=
    tracked_answers (b := b) hs t master
  have hrows : s₁.stored.childTags = .ok ts.childTags := by rw [hstored, ← hsame]; rfl
  have hseen : s₁.seen = .of ts₁ := by rw [Store.seen_of_isOpen hopen, hstored]
  obtain ⟨tags, htags⟩ : ∃ tags, (Store.childTagsOf sub.id).run s₁ = (.ok tags, s₁) :=
    ⟨_, by rw [run_childTagsOf, hseen]; rfl⟩
  obtain ⟨m, hload⟩ : ∃ m, (Migration.load sub).run s₁ = (.ok m, s₁) :=
    ⟨_, by rw [run_load, hseen]; rfl⟩
  have hbegun : SyncBegun b s id master sub t masterTag tags m s₁ :=
    ⟨hkind, hsub, ht, htracked, htags, hload⟩
  cases hexisting : tags.find? fun tag =>
      tag.migrationId = some (t.migrationId b.settings.marker master) with
  | none =>
    obtain ⟨tag, s', hmade, hid, hsubscription⟩ := createCopy_answers hclock hworks hrows
      (b.settings.marks_migrationId t master)
      (fun tag htag heq => hnew tag htag (congrArg ContentKey.id heq)) m assignments
    rw [(of_load hload).2] at hsubscription
    exact ⟨_, s', tag, hbegun.run_copy hexisting hmade, rfl, hid, hsubscription⟩
  | some existing =>
    have hid : existing.migrationId = some (t.migrationId b.settings.marker master) := by
      simpa using List.find?_some hexisting
    obtain ⟨-, rows, hrows', hmem⟩ := of_childTagsOf htags
    rw [Store.seen_of_isOpen hopen, hrows] at hrows'
    obtain rfl := Except.ok.inj hrows'
    obtain ⟨hheld, hsubscription⟩ := (hmem existing).1 (List.mem_of_find?_eq_some hexisting)
    have htag : s₁.stored.childTag? existing.content = .ok (some existing) := by
      rw [Store.childTag?_of_rows hrows]
      exact congrArg _ ((Tables.find?_eq_some_iff hs.contents).2 ⟨hheld, rfl⟩)
    obtain ⟨saved, s', changes, time, hsaved, hseen'⟩ :=
      resync_answers (b := b) hclock hworks hopen htag m assignments
    have hrun := hbegun.run_resync hexisting hsaved
    rw [hseen'] at hrun
    exact ⟨_, s', existing.withChanges changes time, hrun, rfl, hid, hsubscription⟩

theorem sync_answers (id : Uuid) (master : ContentKey) (assignments : List Assignment) :
    SyncAnswers b ts id master ((sync b id master assignments).run s).1 := by
  cases hkind : master.kind.allowedInBlueprint with
  | false =>
    have hfolder : master.kind = .folder := by
      by_contra hother
      rw [allowedInBlueprint_iff.2 hother] at hkind
      cases hkind
    rw [sync, hkind]
    simp only [Bool.not_false, if_true]
    rw [hfolder]
    exact .folder hfolder
  | true =>
    have hother := allowedInBlueprint_iff.1 hkind
    have hsubscription := run_subscription_of_seen hs.holds.seen id
    cases hsub : ts.subscriptions.find? fun sub => sub.id = id with
    | none =>
      rw [hsub] at hsubscription
      rw [sync, hkind]
      simp only [Bool.not_true, Bool.false_eq_true, if_false]
      rw [Action.run_bind_error hsubscription]
      exact .noSubscription hother fun sub hmem hid => by
        simpa [hid] using List.find?_eq_none.1 hsub sub hmem
    | some sub =>
      rw [hsub] at hsubscription
      have hmem := List.mem_of_find?_eq_some hsub
      have hid : sub.id = id := by simpa using List.find?_some hsub
      have htemplate := run_template_of_seen hs.holds.seen sub.templateId
      cases ht : ts.templates.find? fun t => t.id = sub.templateId with
      | none =>
        rw [ht] at htemplate
        rw [sync, hkind]
        simp only [Bool.not_true, Bool.false_eq_true, if_false]
        rw [Action.run_bind_ok hsubscription, Action.run_bind_error htemplate]
        exact .noTemplate hother hmem hid fun t htmem htid => by
          simpa [htid] using List.find?_eq_none.1 ht t htmem
      | some t =>
        rw [ht] at htemplate
        obtain ⟨report, s', tag, hrun, hreport, hmigration, howned⟩ :=
          sync_answers_of_follows (b := b) hs hkind hsubscription htemplate assignments
        rw [hrun]
        exact .synced hother hmem hid (List.mem_of_find?_eq_some ht) (by simpa using List.find?_some ht)
          hreport hmigration (howned.trans hid)

end Sync

/-! ## Edits -/

/-- What an edit answers on tables that can be relied on. -/
inductive EditAnswers (ts : Tables) (content : ContentKey) (changes : Changes) : Result Report → Prop
  | notACopy (hnone : ∀ tag ∈ ts.childTags, tag.content ≠ content) :
      EditAnswers ts content changes (.error (.notACopy content))
  | nothingToChange {tag : ChildTag} (htag : tag ∈ ts.childTags) (hcontent : tag.content = content)
      (hnothing : (editedItem tag changes).pending.isEmpty = true) :
      EditAnswers ts content changes (.error .nothingToChange)
  | answered {tag : ChildTag} {report : Report} (htag : tag ∈ ts.childTags)
      (hcontent : tag.content = content)
      (hrecorded : ∀ saved, report.save = some saved → saved.merge ≠ some .missing) :
      EditAnswers ts content changes (.ok report)

section Edit

variable (hs : s.Dependable ts)
include hs

/-- The save of an edited copy is answered, and finds the tag on which to record. -/
theorem save_edited_answers {tag : ChildTag} (htag : s.stored.childTag? tag.content = .ok (some tag))
    (changes : Changes) :
    ∃ outcome d, (b.save (if changes.system then .system else .user) .noop).run
        ⟨s, editedItem tag changes, [], []⟩ = (.ok outcome, d) ∧
      ∀ report, outcome = .saved report → report.merge ≠ some .missing := by
  have hidle : ∀ c : Context, c.migration = none → b.skips c (editedItem tag changes) = true →
      ∃ outcome d, (b.save c .noop).run ⟨s, editedItem tag changes, [], []⟩ = (.ok outcome, d) ∧
        ∀ report, outcome = .saved report → report.merge ≠ some .missing := by
    intro c hc hskips
    refine ⟨_, _, Rulebook.run_save_of_idle (d := ⟨s, editedItem tag changes, [], []⟩) hskips (.inl hc)
      .noop, fun report hreport => ?_⟩
    rw [← SaveOutcome.saved.inj hreport]
    exact nofun
  cases changes.system with
  | true => exact hidle .system rfl rfl
  | false =>
    cases hcopy : b.isCopy (editedItem tag changes) with
    | false => exact hidle .user rfl (Rulebook.skips_of_not_copy hcopy)
    | true =>
      have hmaster : s.seen.masterTags = .ok ts.masterTags := by rw [hs.holds.seen]; rfl
      have htags : s.stored.childTags = .ok ts.childTags := by rw [hs.holds.stored]; rfl
      obtain ⟨hrefused, hadmitted⟩ := Rulebook.user_save (d := ⟨s, editedItem tag changes, [], []⟩)
        hs.clock hcopy (isNew_editedItem tag changes) hmaster htags .noop
      by_cases hadmits : b.Admits ((editedItem tag changes).locksFrom ts.masterTags)
          (editedItem tag changes)
      · obtain ⟨d₁, -, -, hwritten⟩ := hadmitted hadmits
        rcases hwritten rfl with ⟨report, d, hsave, hsaved⟩ | ⟨hrefuses, -⟩
        · refine ⟨_, d, hsave, fun report' hreport hmissing => ?_⟩
          obtain rfl := SaveOutcome.saved.inj hreport
          have htells := hsaved.store.tells
          rw [hmissing] at htells
          obtain ⟨-, hnone⟩ := htells
          simp only [tagOwner_editedItem] at hnone
          rw [htag] at hnone
          cases hnone
        · exact absurd hs.holds.works hrefuses
      · obtain ⟨columns, d, hsave, -⟩ := hrefused hadmits
        exact ⟨_, d, hsave, nofun⟩

theorem edit_answers (content : ContentKey) (changes : Changes) :
    EditAnswers ts content changes ((edit b content changes).run s).1 := by
  have hseen : s.seen.childTag? content = .ok (Tables.childTagIn ts.childTags content) := by
    rw [hs.holds.seen]
    rfl
  have hlook := run_copyTag content s
  rw [hseen] at hlook
  cases hfind : Tables.childTagIn ts.childTags content with
  | none =>
    rw [hfind] at hlook
    rw [edit, Action.run_bind_error hlook]
    exact .notACopy fun tag htag hcontent => by
      simpa [hcontent] using List.find?_eq_none.1 hfind tag htag
  | some tag =>
    rw [hfind] at hlook hseen
    obtain rfl := Tables.content_of_childTagIn hfind
    have htag : s.stored.childTag? tag.content = .ok (some tag) := by rw [← hs.holds.shown, hseen]
    have hmem : tag ∈ ts.childTags := List.mem_of_find?_eq_some hfind
    have hready : s.Ready := ⟨hs.clock, hs.holds.shown⟩
    rw [edit, Action.run_bind_ok hlook]
    simp only
    cases hnothing : (editedItem tag changes).pending.isEmpty with
    | true => exact .nothingToChange hmem rfl hnothing
    | false =>
      obtain ⟨outcome, d, hsave, hmerge⟩ := save_edited_answers (b := b) hs htag changes
      obtain ⟨changes', time, hseen'⟩ := seen_of_save hready htag hsave
      simp only [Bool.false_eq_true, if_false]
      rw [Action.run_bind_ok (Work.run_on_eq_ok.2 ⟨hsave, rfl⟩)]
      simp only
      rw [Action.run_read (Store.run_childTag? tag.content d.store), hseen']
      refine .answered hmem rfl fun saved hsaved => ?_
      cases outcome with
      | rejected r => cases hsaved
      | saved report =>
        obtain rfl := Option.some.inj hsaved
        exact hmerge report rfl

end Edit

/-- On a store whose calls succeed, with one row at most under each key, syncs and edits do not fail
from within, whatever the rules and the arguments. -/
theorem internal_failures_unreachable (b : Rulebook) (hs : s.Dependable ts) :
    (∀ id master assignments,
      SyncAnswers b ts id master ((sync b id master assignments).run s).1) ∧
    ∀ content changes, EditAnswers ts content changes ((edit b content changes).run s).1 :=
  ⟨fun id master assignments => sync_answers hs id master assignments,
    fun content changes => edit_answers hs content changes⟩

end Command

/-! ## A page that was copied -/

namespace Sample

/-- A blueprint, a child course that follows it, and a page with its copy, in which the body was changed
while the content is locked. -/
def copiedTables : Tables where
  templates := [⟨supply.ids 0, ⟨10⟩, .epoch⟩]
  subscriptions := [⟨supply.ids 1, supply.ids 0, ⟨4⟩⟩]
  masterTags := [pageTag ⟨1⟩ (Template.migrationId ⟨supply.ids 0, ⟨10⟩, .epoch⟩ rulebook.settings.marker
    page)]
  childTags := [copyTag ["body"]]

def copiedStore : Store :=
  ⟨.memory { Memory.empty with tables := copiedTables }, { supply with idsUsed := 5, timesUsed := 0 }⟩

theorem dependable_copiedStore : copiedStore.Dependable copiedTables where
  holds := ⟨rfl, rfl, rfl, rfl⟩
  clock := showsDates_supply
  migrationIds := List.nodup_singleton _
  contents := List.nodup_singleton _
  spares := by
    have hdifferent : ∀ i < 7, ∀ j < 7, supply.ids i = supply.ids j → i = j := by decide
    have hunused : ∀ i < 7, 5 ≤ i → supply.ids i ≠ supply.ids 3 := by decide
    refine ⟨fun i j _ hi _ hj heq => hdifferent i hi j hj heq, fun i hlow hi hmem => ?_⟩
    exact hunused i hi hlow (List.mem_singleton.1 hmem)

/-- The page is synced again, another page is synced for the first time, and the copy is edited. -/
theorem copiedStore_answers :
    copiedStore.Dependable copiedTables ∧
    Command.SyncAnswers rulebook copiedTables (supply.ids 1) page
      ((Command.sync rulebook (supply.ids 1) page [("body", .string "new")]).run copiedStore).1 ∧
    Command.SyncAnswers rulebook copiedTables (supply.ids 1) ⟨.wikiPage, ⟨2⟩⟩
      ((Command.sync rulebook (supply.ids 1) ⟨.wikiPage, ⟨2⟩⟩ []).run copiedStore).1 ∧
    Command.EditAnswers copiedTables (copyTag []).content ⟨[("title", .string "new")], false, false⟩
      ((Command.edit rulebook (copyTag []).content ⟨[("title", .string "new")], false, false⟩).run
        copiedStore).1 := by
  have hanswers := Command.internal_failures_unreachable rulebook dependable_copiedStore
  exact ⟨dependable_copiedStore, hanswers.1 _ _ _, hanswers.1 _ _ _, hanswers.2 _ _⟩

end Sample

end CourseBlueprint
