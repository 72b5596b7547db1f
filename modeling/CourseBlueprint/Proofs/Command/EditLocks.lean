import CourseBlueprint.Proofs.Command.Copies

/-!
# Locks on edits

An edit of a copy goes by the locks that are stored for the blueprint content, whatever was
requested since the copy was made. It is rejected for the pending columns of categories with a lock
of their own. The scope query also calls a category restricted if everything is locked; the edit is
not rejected for that (`edit_obeys_locks_iff`).
-/

namespace CourseBlueprint

namespace Rulebook

variable {b : Rulebook} {c : Context} {write : Persist} {d d' : Desk}

/-! ## Checking edits -/

/-- The locks of a copy that a user edits are those of the master tag under its migration
identifier. -/
theorem run_restrictionsInForce_stored {id : String} {rows : List MasterTag}
    (hopen : d.store.isOpen = true) (hrows : d.store.stored.masterTags = .ok rows)
    (hkept : d.item.childRestrictions = none) (hid : d.item.migrationId = some id) :
    ∃ s, d.store.Alike s ∧ (restrictionsInForce .user).run d =
      (.ok (MasterTag.locksUnder rows id),
        { d with store := s }.withLocks (MasterTag.locksUnder rows id)) := by
  refine run_restrictionsInForce_user rfl hkept hid ?_
  rw [Store.seen_of_isOpen hopen, hrows]

theorem mem_lockedAmong_entries {r : Restrictions} {i : Item} {column : String}
    (hpending : column ∈ i.pending.keys) :
    column ∈ lockedAmong r i (b.schemaOf i).entries [] ↔
      ∃ g, column ∈ (b.schemaOf i).columns g ∧ r.isLocked g = true := by
  rw [mem_lockedAmong]
  constructor
  · rintro (h | ⟨-, ⟨g, columns⟩, hmem, hlocked, hcolumn⟩)
    · exact absurd h List.not_mem_nil
    · exact ⟨g, Schema.mem_columns.2 ⟨columns, hmem, hcolumn⟩, hlocked⟩
  · rintro ⟨g, hcolumn, hlocked⟩
    obtain ⟨columns, hmem, hcolumn⟩ := Schema.mem_columns.1 hcolumn
    exact .inr ⟨hpending, (g, columns), hmem, hlocked, hcolumn⟩

/-- A save is rejected by its check, and by nothing else. -/
theorem save_rejected_iff {rejection : Rejection} :
    (b.save c write).run d = (.ok (.rejected rejection), d') ↔
      (b.check c).run d = (.ok (.inr rejection), d') := by
  constructor
  · intro h
    cases stages h with
    | rejected hcheck => exact hcheck
  · intro h
    rw [save, Action.run_bind_ok h]
    rfl

end Rulebook

namespace Command

variable {b : Rulebook} {s s' : Store}

/-! ## Editing -/

theorem of_copyTag {content : ContentKey} {tag : ChildTag} (hopen : s.isOpen = true)
    (htag : s.stored.childTag? content = .ok (some tag)) :
    (copyTag content).run s = (.ok tag, s) := by
  rw [copyTag, Action.run_bind, Store.run_childTag?, Store.seen_of_isOpen hopen, htag]
  rfl

/-- What a copy is known by, whatever is changed about it. -/
theorem editedItem_frame (tag : ChildTag) (changes : Changes) :
    ∃ attributes pending, editedItem tag changes =
      { Item.persisted tag.content attributes with
        migrationId := tag.migrationId, pending := pending } := by
  obtain ⟨attributes, pending, hall⟩ := Item.setAll_frame changes.assignments (copyItem tag ∅)
  unfold editedItem
  simp only
  rw [hall]
  split
  · obtain ⟨attributes', pending', hset⟩ := Item.set_frame
      { copyItem tag ∅ with attributes := attributes, pending := pending }
      tag.content.kind.stateColumn (.string Item.deletedState)
    exact ⟨attributes', pending', hset⟩
  · exact ⟨attributes, pending, rfl⟩

theorem key_editedItem (tag : ChildTag) (changes : Changes) :
    (editedItem tag changes).key = tag.content := by
  obtain ⟨attributes, pending, hitem⟩ := editedItem_frame tag changes
  rw [hitem]
  rfl

theorem tagOwner_editedItem (tag : ChildTag) (changes : Changes) :
    (editedItem tag changes).tagOwner = tag.content := by
  obtain ⟨attributes, pending, hitem⟩ := editedItem_frame tag changes
  rw [hitem]
  rfl

theorem migrationId_editedItem (tag : ChildTag) (changes : Changes) :
    (editedItem tag changes).migrationId = tag.migrationId := by
  obtain ⟨attributes, pending, hitem⟩ := editedItem_frame tag changes
  rw [hitem]

theorem isNew_editedItem (tag : ChildTag) (changes : Changes) :
    (editedItem tag changes).isNew = false := by
  obtain ⟨attributes, pending, hitem⟩ := editedItem_frame tag changes
  rw [hitem]
  rfl

theorem childRestrictions_editedItem (tag : ChildTag) (changes : Changes) :
    (editedItem tag changes).childRestrictions = none := by
  obtain ⟨attributes, pending, hitem⟩ := editedItem_frame tag changes
  rw [hitem]
  rfl

theorem isCopy_editedItem {tag : ChildTag} {id : String} (changes : Changes)
    (hid : tag.migrationId = some id) (hmarks : b.settings.marks id = true) :
    b.isCopy (editedItem tag changes) = true := by
  rw [Rulebook.isCopy, migrationId_editedItem, hid]
  exact hmarks

theorem schemaOf_editedItem (tag : ChildTag) (changes : Changes) :
    b.schemaOf (editedItem tag changes) = b.registry tag.content.kind := by
  rw [Rulebook.schemaOf, key_editedItem]

/-- Editing depends on the content and the migration identifier of a tag only. -/
theorem editedItem_eq {tag tag' : ChildTag} (hcontent : tag'.content = tag.content)
    (hid : tag'.migrationId = tag.migrationId) (changes : Changes) :
    editedItem tag' changes = editedItem tag changes := by
  unfold editedItem copyItem
  rw [hcontent, hid]

section Copy

variable {content : ContentKey} {tag : ChildTag} {id : String} {rows : List MasterTag}

/-- The check of an edit finds the pending columns of categories that are locked for the copy. -/
theorem run_check_edited (changes : Changes) (hopen : s.isOpen = true)
    (hrows : s.stored.masterTags = .ok rows) (hid : tag.migrationId = some id)
    (hmarks : b.settings.marks id = true) (hexempt : b.settings.exempt tag.content.kind = false) :
    ∃ d, s.Alike d.store ∧ (b.check .user).run ⟨s, editedItem tag changes, [], []⟩ =
      (.ok (Rulebook.checkOf (Rulebook.lockedAmong (MasterTag.locksUnder rows id)
        (editedItem tag changes) (b.schemaOf (editedItem tag changes)).entries [])), d) := by
  have happlies : ((editedItem tag changes).isNew || b.skips .user (editedItem tag changes) ||
      b.settings.exempt (editedItem tag changes).key.kind) = false := by
    simp [isNew_editedItem, Rulebook.skips, isCopy_editedItem changes hid hmarks, Context.isImport,
      Context.user, key_editedItem, hexempt]
  obtain ⟨s₁, halike, hlocks⟩ := Rulebook.run_restrictionsInForce_stored
    (d := ⟨s, editedItem tag changes, [], []⟩) hopen hrows (childRestrictions_editedItem tag changes)
    ((migrationId_editedItem tag changes).trans hid)
  obtain ⟨d, hd, hcheck⟩ := Rulebook.run_check happlies hlocks rfl
  refine ⟨d, ?_, hcheck⟩
  rcases hd with rfl | rfl
  · exact .refl s
  · exact halike

/-- Whether a request is answered with a rejection that names a column. -/
def RejectsColumn (b : Rulebook) (s : Store) (r : Request) (column : String) : Prop :=
  ∃ answer s', (r.run b).run s = (.ok answer, s') ∧
    ∃ rejection, answer.rejected = some rejection ∧ column ∈ rejection.columns

/-- How the end of a save answers an edit. -/
def editReport (content : ContentKey) : SaveOutcome → Report
  | .rejected r => { rejected := some r }
  | .saved s => { save := some s, messages := [editMessage content false s.merge] }

/-- An edit that changes something is a save of the edited copy. -/
theorem run_edit {texts : List String} {assignments : List Assignment} {delete : Bool}
    {column : String} (hopen : s.isOpen = true)
    (htag : s.stored.childTag? content = .ok (some tag))
    (htexts : Assignment.ofTexts texts = .ok assignments)
    (hpending : column ∈ (editedItem tag ⟨assignments, delete, false⟩).pending.keys) :
    ((Request.edit content texts delete false).run b).run s =
      (do
        let item := editedItem tag ⟨assignments, delete, false⟩
        let (outcome, _) ← Work.on item (b.save .user .noop)
        let found ← Store.childTag? content
        return { editReport content outcome with childTags := found.toList }).run s := by
  have hchanges : (editedItem tag ⟨assignments, delete, false⟩).pending.isEmpty = false := by
    obtain ⟨entry, hentry, -⟩ := List.mem_map.1 hpending
    exact List.isEmpty_eq_false_iff.2 (List.ne_nil_of_mem hentry)
  rw [Request.run, htexts]
  show (edit b content ⟨assignments, delete, false⟩).run s = _
  rw [edit, Action.run_bind_ok (of_copyTag hopen htag)]
  simp only [hchanges, Bool.false_eq_true, if_false]
  rfl

/-- An edit is rejected for a pending column exactly if the column lies in a category with a lock of
its own. -/
theorem edit_rejects_iff {texts : List String} {assignments : List Assignment} {delete : Bool}
    {column : String} (hopen : s.isOpen = true) (hrows : s.stored.masterTags = .ok rows)
    (htag : s.stored.childTag? content = .ok (some tag)) (hid : tag.migrationId = some id)
    (hmarks : b.settings.marks id = true) (hexempt : b.settings.exempt content.kind = false)
    (htexts : Assignment.ofTexts texts = .ok assignments)
    (hpending : column ∈ (editedItem tag ⟨assignments, delete, false⟩).pending.keys) :
    RejectsColumn b s (.edit content texts delete false) column ↔
      ∃ g, column ∈ (b.registry content.kind).columns g ∧
        (MasterTag.locksUnder rows id).isLocked g = true := by
  obtain rfl : tag.content = content := Store.content_of_childTag? htag
  obtain ⟨d, halike, hcheck⟩ :=
    run_check_edited ⟨assignments, delete, false⟩ hopen hrows hid hmarks hexempt
  rw [← schemaOf_editedItem tag ⟨assignments, delete, false⟩,
    ← Rulebook.mem_lockedAmong_entries hpending]
  unfold RejectsColumn
  rw [run_edit hopen htag htexts hpending]
  constructor
  · rintro ⟨answer, s', hanswer, rejection, hrejected, hcolumn⟩
    rw [Action.run_bind_eq_ok] at hanswer
    obtain ⟨⟨outcome, d'⟩, s₁, hsaved, hanswer⟩ := hanswer
    obtain ⟨hsave, rfl⟩ := Work.run_on_eq_ok.1 hsaved
    simp only at hanswer
    rw [Action.run_bind_eq_ok] at hanswer
    obtain ⟨found, s₂, -, hanswer⟩ := hanswer
    obtain ⟨rfl, rfl⟩ := Action.run_pure_eq_ok.1 hanswer
    cases outcome with
    | saved report => cases hrejected
    | rejected r =>
      obtain rfl := Option.some.inj hrejected
      have hrejecting := Rulebook.save_rejected_iff.1 hsave
      rw [hcheck] at hrejecting
      obtain ⟨-, rfl⟩ := Rulebook.checkOf_eq_inr.1 (Except.ok.inj (Prod.mk.inj hrejecting).1)
      exact hcolumn
  · intro hcolumn
    rw [Rulebook.checkOf_eq_inr.2 ⟨List.ne_nil_of_mem hcolumn, rfl⟩] at hcheck
    have hsave : (b.save .user .noop).run ⟨s, editedItem tag ⟨assignments, delete, false⟩, [], []⟩ =
        (.ok (.rejected _), d) := Rulebook.save_rejected_iff.2 hcheck
    have hseen : d.store.seen.childTag? tag.content = .ok (some tag) := by
      rw [halike.seen, Store.seen_of_isOpen hopen, htag]
    refine ⟨{ editReport tag.content (.rejected _) with childTags := [tag] }, d.store, ?_, _, rfl,
      hcolumn⟩
    rw [Action.run_bind_ok (Work.run_on_eq_ok.2 ⟨hsave, rfl⟩)]
    simp only
    rw [Action.run_bind, Store.run_childTag?, hseen]
    rfl

/-- Whether the scope query calls a category of an item restricted. -/
def Restricts (b : Rulebook) (s : Store) (i : Item) (g : Category) : Prop :=
  ((b.isRestricted .user (.only (.only g))).run ⟨s, i, [], []⟩).1 = .ok true

/-- The scope query of a user goes by the locks that are held for the copy. -/
theorem run_isRestricted_stored {i : Item} (scope : Scope) (hopen : s.isOpen = true)
    (hrows : s.stored.masterTags = .ok rows) (hkept : i.childRestrictions = none)
    (hid : i.migrationId = some id) (hmarks : b.settings.marks id = true) :
    ((b.isRestricted .user scope).run ⟨s, i, [], []⟩).1 =
      .ok ((MasterTag.locksUnder rows id).restrict (b.schemaOf i) scope) := by
  have hcopy : b.isCopy i = true := by
    rw [Rulebook.isCopy, hid]
    exact hmarks
  obtain ⟨s₁, -, hlocks⟩ :=
    Rulebook.run_restrictionsInForce_stored (d := ⟨s, i, [], []⟩) hopen hrows hkept hid
  rw [Rulebook.run_isRestricted (d := ⟨s, i, [], []⟩) hcopy hlocks]

/-- The scope query goes by the lock of the category and by the lock of everything. -/
theorem restricts_edited_iff (changes : Changes) (g : Category) (hopen : s.isOpen = true)
    (hrows : s.stored.masterTags = .ok rows) (hid : tag.migrationId = some id)
    (hmarks : b.settings.marks id = true) :
    Restricts b s (editedItem tag changes) g ↔
      (MasterTag.locksUnder rows id).locksEverything = true ∨
        (MasterTag.locksUnder rows id).isLocked g = true := by
  rw [Restricts, run_isRestricted_stored (.only (.only g)) hopen hrows
      (childRestrictions_editedItem tag changes) ((migrationId_editedItem tag changes).trans hid) hmarks,
    Restrictions.restrict_only, Restrictions.isLocked, ← Bool.or_eq_true, Except.ok.injEq]

end Copy

/-! ## Edits of what a sync made -/

/-- An edit of a copy that a sync made, whatever was requested in between, is rejected for a pending
column exactly if the column lies in a category with a lock of its own. So it obeys the scope query
exactly if that is so or not everything is locked. -/
theorem edit_obeys_locks_iff {s₁ : Store} {subscription : Uuid} {master : ContentKey}
    {texts texts' : List String} {report : Report} {tag : ChildTag} {assignments : List Assignment}
    {delete : Bool} {column : String} {g : Category} (after : List Request)
    (hclock : s.supply.ShowsDates)
    (hsync : ((Request.sync subscription master texts).run b).run s = (.ok report, s₁))
    (htag : tag ∈ report.childTags) (hnew : s.stored.childTag? tag.content = .ok none)
    (hexempt : b.settings.exempt master.kind = false)
    (htexts : Assignment.ofTexts texts' = .ok assignments)
    (hpending : column ∈ (editedItem tag ⟨assignments, delete, false⟩).pending.keys)
    (hcolumn : column ∈ (b.registry master.kind).columns g) :
    ∃ t rows, s.Follows subscription t ∧ (Request.runAll b after s₁).stored.masterTags = .ok rows ∧
      let locks := MasterTag.locksUnder rows (t.migrationId b.settings.marker master)
      let restricted := Restricts b (Request.runAll b after s₁)
        (editedItem tag ⟨assignments, delete, false⟩) g
      let rejected := RejectsColumn b (Request.runAll b after s₁)
        (.edit tag.content texts' delete false) column
      let locked := ∃ g', column ∈ (b.registry master.kind).columns g' ∧ locks.isLocked g' = true
      (restricted ↔ locks.locksEverything = true ∨ locks.isLocked g = true) ∧
        (rejected ↔ locked) ∧
        ((restricted → rejected) ↔ (locks.locksEverything = true → locked)) := by
  rw [Request.run, Action.run_bind_eq_ok] at hsync
  obtain ⟨synced, s₀, hread, hsync⟩ := hsync
  obtain ⟨-, rfl⟩ := Action.run_liftM_eq_ok.1 hread
  obtain ⟨hkind, t, hfollows, hid, hcopy⟩ := holdsCopy_of_sync hclock hsync htag hnew
  have hevolves : s.Evolves s₁ := (evolves_sync hclock _ _ _).of_run hsync (.refl s)
  have hclock₁ : s₁.supply.ShowsDates := hevolves.supply.showsDates hclock
  obtain ⟨hopen, ⟨rows, hrows⟩, tag', htag', hid'⟩ :=
    hcopy.evolves (Request.evolves_runAll after hclock₁)
  -- the tag may have other changes by now, but editing does not depend on them
  have hcontent : tag'.content = tag.content := Store.content_of_childTag? htag'
  have hitem := editedItem_eq hcontent (hid'.trans hid.symm) ⟨assignments, delete, false⟩
  have hmarks := b.settings.marks_migrationId t master
  rw [← hitem] at hpending ⊢
  have hrestricted := restricts_edited_iff (b := b) ⟨assignments, delete, false⟩ g hopen hrows hid'
    hmarks
  have hrejected := edit_rejects_iff hopen hrows htag' hid' hmarks (by rw [hkind, hexempt]) htexts
    hpending
  rw [hkind] at hrejected
  refine ⟨t, rows, hfollows, hrows, hrestricted, hrejected, ?_⟩
  simp only [hrestricted, hrejected]
  constructor
  · intro hobeys heverything
    exact hobeys (.inl heverything)
  · rintro hcondition (heverything | hlocked)
    · exact hcondition heverything
    · exact ⟨g, hcolumn, hlocked⟩

end Command

/-! ## A page that is locked -/

namespace Sample

/-- The blueprint of the subscription. -/
def template : Template := ⟨subscription.templateId, ⟨10⟩, .epoch⟩

/-- A store where a child course follows the blueprint. -/
def subscribed : Store :=
  ⟨.memory { Memory.empty with
    tables := { Tables.empty with templates := [template], subscriptions := [subscription] } },
    supply⟩

/-- The store once the page was synced. -/
def synced : Store := (((Request.sync subscription.id page []).run rulebook).run subscribed).2

/-- The child tag of the copy that the sync makes. -/
def copied : ChildTag :=
  ⟨supply.ids 2, subscription.id, ⟨.wikiPage, supply.ids 1⟩,
    some (template.migrationId rulebook.settings.marker page), ∅, .epoch, .epoch⟩

theorem exists_report_synced : ∃ report,
    ((Request.sync subscription.id page []).run rulebook).run subscribed = (.ok report, synced) ∧
      report.childTags = [copied] := by
  have hanswer : (((Request.sync subscription.id page []).run rulebook).run
      subscribed).1.toOption.map Report.childTags = some [copied] := by decide +kernel
  cases hrun : (((Request.sync subscription.id page []).run rulebook).run subscribed).1 with
  | error e =>
    rw [hrun] at hanswer
    cases hanswer
  | ok report =>
    rw [hrun] at hanswer
    exact ⟨report, Prod.ext hrun rfl, Option.some.inj hanswer⟩

/-- The store once a lock of the page was set, too. -/
def lockedBy (l : Lock) : Store :=
  Request.runAll rulebook [.setLocks template.courseId page [l] true] synced

theorem ofTexts_body :
    Assignment.ofTexts ["body=new"] = .ok [("body", Assignment.valueOf "new")] := by
  have hsplit : Assignment.split? "body=new".toList = some ("body".toList, "new".toList) := by
    decide
  have htrim : Text.trim "body".toList = "body".toList := by decide
  rw [Assignment.ofTexts, List.mapM_cons, List.mapM_nil, Assignment.ofText, hsplit]
  simp only [htrim]
  rfl

theorem pending_body : "body" ∈ (Command.editedItem copied
    ⟨[("body", Assignment.valueOf "new")], false, false⟩).pending.keys := by decide +kernel

theorem content_body : "body" ∈ (rulebook.registry page.kind).columns .content := by decide +kernel

/-- The body of the copy is rejected while the content of the page is locked. -/
theorem rejectsColumn_body : Command.RejectsColumn rulebook (lockedBy (.only .content))
    (.edit copied.content ["body=new"] false false) "body" := by
  obtain ⟨report, hsync, hreport⟩ := exists_report_synced
  have htag : copied ∈ report.childTags := hreport ▸ List.mem_singleton_self _
  obtain ⟨t, rows, hfollows, hrows, hrestricted, -, hobeys⟩ := Command.edit_obeys_locks_iff
    [.setLocks template.courseId page [.only .content] true] showsDates_supply hsync htag rfl rfl
    ofTexts_body pending_body content_body
  have hlocked : (MasterTag.locksUnder rows
      (t.migrationId rulebook.settings.marker page)).isLocked .content = true := by
    have ht : template = t := Store.Follows.unique
      ⟨[subscription], [template], subscription, rfl, rfl, rfl, rfl⟩ hfollows
    have hlocks : (lockedBy (.only .content)).stored.masterTags.toOption.map (fun rows =>
        (MasterTag.locksUnder rows (template.migrationId rulebook.settings.marker page)).isLocked
          .content) = some true := by decide +kernel
    rw [← ht]
    rw [lockedBy, hrows] at hlocks
    exact Option.some.inj hlocks
  exact hobeys.2 (fun _ => ⟨.content, content_body, hlocked⟩) (hrestricted.2 (.inr hlocked))

/-- While everything is locked the scope query calls the content restricted, and the edit is not
rejected. -/
theorem not_edit_obeys_locks :
    ¬ ∀ (b : Rulebook) (s s₁ : Store) (subscription : Uuid) (master : ContentKey)
      (texts texts' : List String) (report : Report) (tag : ChildTag)
      (assignments : List Assignment) (delete : Bool) (column : String) (g : Category)
      (after : List Request), s.supply.ShowsDates →
      ((Request.sync subscription master texts).run b).run s = (.ok report, s₁) →
      tag ∈ report.childTags → s.stored.childTag? tag.content = .ok none →
      b.settings.exempt master.kind = false → Assignment.ofTexts texts' = .ok assignments →
      column ∈ (Command.editedItem tag ⟨assignments, delete, false⟩).pending.keys →
      column ∈ (b.registry master.kind).columns g →
      Command.Restricts b (Request.runAll b after s₁)
        (Command.editedItem tag ⟨assignments, delete, false⟩) g →
      Command.RejectsColumn b (Request.runAll b after s₁) (.edit tag.content texts' delete false)
        column := by
  intro h
  obtain ⟨report, hsync, hreport⟩ := exists_report_synced
  have htag : copied ∈ report.childTags := hreport ▸ List.mem_singleton_self _
  have hrestricted : Command.Restricts rulebook (lockedBy .everything)
      (Command.editedItem copied ⟨[("body", Assignment.valueOf "new")], false, false⟩) .content :=
    Result.toOption_eq_some.1 (by decide +kernel)
  obtain ⟨answer, s, hanswer, rejection, hrejected, -⟩ :=
    h rulebook subscribed synced subscription.id page [] ["body=new"] report copied
      [("body", Assignment.valueOf "new")] false "body" .content
      [.setLocks template.courseId page [.everything] true] showsDates_supply hsync htag rfl rfl
      ofTexts_body pending_body content_body hrestricted
  have haccepted : (((Request.edit copied.content ["body=new"] false false).run rulebook).run
      (lockedBy .everything)).1.toOption.bind Report.rejected = none := by decide +kernel
  rw [lockedBy, hanswer] at haccepted
  rw [show answer.rejected = none from haccepted] at hrejected
  cases hrejected

end Sample

end CourseBlueprint
