import CourseBlueprint.Proofs.Command.Resync
import CourseBlueprint.Proofs.Save.ImportLocks

/-!
# What a preview predicts

The categories that a dry run answers tell what a reconciliation does (`Rulebook.Predicts`): it takes
back the pending changes that they govern and no others, and forgets nothing that only they govern.
Since a preview and a sync go by the same locks and the same child tag, the categories that a preview
answers tell which columns the next sync of the copy does not write (`preview_predicts_sync`).
-/

namespace CourseBlueprint

namespace Rulebook

open Reconciliation (Plan)

/-- What is predicted of a reconciliation that starts at `d` and ends at `d'` by the categories that a
dry run answered. The state column and the mark of a deletion are left out of account. -/
structure Predicts (b : Rulebook) (kept : List Category) (d d' : Desk) : Prop where
  undone : ∀ column ∈ d.item.pending.keys, column ≠ d.item.stateColumn →
    (d'.item.pending.get? column = none ↔ ∃ g ∈ kept, column ∈ (b.schemaOf d.item).columns g)
  restored : ∀ column, d'.item.pending.get? column = none →
    d'.item.value column = d.item.original column
  others : ∀ column, d'.item.pending.get? column ≠ none →
    d'.item.pending.get? column = d.item.pending.get? column ∧
      d'.item.value column = d.item.value column
  remembered : ∀ column, d.Records column → column ≠ manuallyDeleted →
    (∀ g, column ∈ (b.schemaOf d.item).columns g → g ∈ kept) → d'.Records column

/-- What is predicted of a reconciliation, which has no effect if it fails. -/
def Foretells (b : Rulebook) (kept : List Category) (d : Desk) : Result Reconciliation → Desk → Prop
  | .ok _, d' => b.Predicts kept d d'
  | .error _, d' => d.UntouchedButTag d'

variable {b : Rulebook} {c : Context} {m : Migration} {d d' : Desk} {kept : List Category}

/-- An item that is left alone is as a dry run without an answer predicts. -/
theorem Predicts.refl (b : Rulebook) (d : Desk) : b.Predicts [] d d where
  undone := by
    intro column hpending _
    have hsome : (d.item.pending.get? column).isSome = true := Dict.mem_keys_iff.1 hpending
    constructor
    · intro hnone
      rw [hnone] at hsome
      cases hsome
    · rintro ⟨g, hg, -⟩
      exact absurd hg List.not_mem_nil
  restored := fun column hnone => (Item.original_of_not_pending hnone).symm
  others := fun _ _ => ⟨rfl, rfl⟩
  remembered := fun _ hrecords _ _ => hrecords

/-- The columns that an import spares are those of the categories that are kept. -/
theorem spares_iff {column : String}
    (hkept : ∀ g, g ∈ kept ↔ (d.item.locksIn m).isLocked g = false ∧
      ∃ x ∈ (b.schemaOf d.item).columns g, d.Records x) :
    b.Spares m d column ↔ ∃ g ∈ kept, column ∈ (b.schemaOf d.item).columns g := by
  constructor
  · rintro ⟨g, hcolumn, hfree, hrecords⟩
    exact ⟨g, (hkept g).2 ⟨hfree, hrecords⟩, hcolumn⟩
  · rintro ⟨g, hg, hcolumn⟩
    obtain ⟨hfree, hrecords⟩ := (hkept g).1 hg
    exact ⟨g, hcolumn, hfree, hrecords⟩

/-- The categories without a lock of their own that have recorded changes predict a reconciliation
that answers. -/
theorem Reconciled.predicted {reconciliation : Reconciliation}
    (h : b.Reconciled m d (.ok reconciliation) d')
    (hkept : ∀ g, g ∈ kept ↔ (d.item.locksIn m).isLocked g = false ∧
      ∃ x ∈ (b.schemaOf d.item).columns g, d.Records x) :
    b.Predicts kept d d' where
  undone := by
    intro column hpending hstate
    have hsome : (d.item.pending.get? column).isSome = true := Dict.mem_keys_iff.1 hpending
    rw [h.pending_eq_none_iff, exists_mem_takeBack_iff hstate, spares_iff hkept]
    constructor
    · rintro (hnone | ⟨-, hspared⟩)
      · rw [hnone] at hsome
        cases hsome
      · exact hspared
    · intro hspared
      exact .inr ⟨hpending, hspared⟩
  restored := by
    intro column hnone
    rw [← h.original_eq column, Item.original_of_not_pending hnone]
  others := by
    intro column hsome
    rcases h.held_or_untagged with hnone | ⟨tag, htag⟩
    · have huntouched := h.untouched_of_untagged hnone
      exact ⟨by rw [huntouched.pending], by rw [Item.value, Item.value, huntouched.attributes]⟩
    · have hdone := h.carriedOut_of_held htag
      have hleft : ¬ column ∈ (b.planIn m tag d.item).takeBack := by
        intro htaken
        rw [hdone.pending, if_pos htaken] at hsome
        exact hsome rfl
      exact ⟨by rw [hdone.pending, if_neg hleft], by rw [hdone.value, if_neg hleft]⟩
  remembered := by
    rintro column ⟨tag, htag, hchanges⟩ hmark honly
    refine (h.records_iff htag column).2 ⟨hchanges, fun hforget => ?_⟩
    rcases Plan.mem_forget_full.1 hforget with ⟨-, g, hcolumn, hlocked⟩ | ⟨hdeleted, -⟩
    · rw [((hkept g).1 (honly g hcolumn)).1] at hlocked
      cases hlocked
    · exact hmark hdeleted

/-- A dry run predicts the reconciliation that follows it, or that takes its place. -/
theorem foretells_reconcile {d₁ e e' : Desk} {r : Result Reconciliation}
    (hclock : d.store.supply.ShowsDates)
    (hshown : d.store.seen.childTag? d.item.key = d.store.stored.childTag? d.item.key)
    (hc : c.migration = some m) (hkept : (b.keptCategories c).run d = (.ok kept, d₁))
    (hfrom : e = d ∨ e = d₁) (hreconcile : (b.reconcile c).run e = (r, e')) :
    b.Foretells kept e r e' := by
  cases hcopy : b.isCopy d.item with
  | false =>
    have hnothing : (b.keptCategories c).run d = (.ok [], d) := by
      rw [keptCategories, Action.run_bind_ok (Work.run_item d)]
      simp only [hcopy, Bool.not_false, Bool.or_true, if_true]
      rfl
    rw [hnothing] at hkept
    obtain ⟨hanswer, rfl⟩ := Prod.mk.inj hkept
    obtain rfl := Except.ok.inj hanswer
    obtain rfl : e = d := hfrom.elim id id
    rw [run_reconcile_of_idle (.inr hcopy)] at hreconcile
    obtain ⟨rfl, rfl⟩ := Prod.mk.inj hreconcile
    exact .refl b e
  | true =>
    obtain ⟨hleft, hmem⟩ := of_keptCategories hc hcopy hkept
    -- the dry run has changed nothing but which locks the item keeps, and these are in force anyway
    obtain ⟨hstore, hkey, hlocks, hcopy'⟩ : e.store = d.store ∧ e.item.key = d.item.key ∧
        e.item.locksIn m = d.item.locksIn m ∧ b.isCopy e.item = true := by
      rcases hfrom with rfl | rfl
      · exact ⟨rfl, rfl, rfl, hcopy⟩
      · rcases hleft with rfl | rfl
        · exact ⟨rfl, rfl, rfl, hcopy⟩
        · exact ⟨rfl, rfl, rfl, hcopy⟩
    rw [← hstore] at hclock
    have hreconciled : b.Reconciled m e r e' := reconciled hc hcopy' hclock hreconcile
    have hkept' : ∀ g, g ∈ kept ↔ (e.item.locksIn m).isLocked g = false ∧
        ∃ x ∈ (b.schemaOf e.item).columns g, e.Records x := by
      intro g
      rw [hmem, hshown, exists_records_iff, hlocks, hstore, hkey, schemaOf, schemaOf, hkey]
    cases r with
    | ok reconciliation => exact hreconciled.predicted hkept'
    | error f => exact hreconciled.untouched_of_error

end Rulebook

namespace Command

variable {b : Rulebook} {s s' : Store}

/-- What a preview was that answers: a dry run of an import for the copy's subscription, which changes
no row. -/
theorem of_preview {content : ContentKey} {report : Report}
    (h : (preview b content).run s = (.ok report, s')) :
    s.Alike s' ∧ ∃ tag sub m kept d, s.seen.childTag? content = .ok (some tag) ∧
      (subscription tag.subscriptionId).run s = (.ok sub, s) ∧
      (Migration.load sub).run s = (.ok m, s) ∧
      (b.keptCategories (.importing m)).run ⟨s, copyItem tag ∅, [], []⟩ = (.ok kept, d) ∧
      report.kept = some kept := by
  refine ⟨(keeps_preview Store.alike_masterTagsWith content).of_run h (.refl s), ?_⟩
  rw [preview, Action.run_bind_eq_ok] at h
  obtain ⟨tag, s₁, htag, h⟩ := h
  rw [run_copyTag] at htag
  obtain ⟨hfound, rfl⟩ := Prod.mk.inj htag
  obtain ⟨sub, s₁, hsub, h⟩ := Action.run_bind_eq_ok.1 h
  obtain ⟨rfl, -⟩ := of_subscription hsub
  obtain ⟨m, s₁, hload, h⟩ := Action.run_bind_eq_ok.1 h
  obtain ⟨rfl, -⟩ := of_load hload
  obtain ⟨⟨kept, restricted⟩, s₁, hexamined, h⟩ := Action.run_bind_eq_ok.1 h
  obtain ⟨rfl, -⟩ := Action.run_pure_eq_ok.1 h
  obtain ⟨⟨_, d⟩, s₂, hon, hanswer⟩ := Action.run_bind_eq_ok.1 hexamined
  obtain ⟨rfl, -⟩ := Action.run_pure_eq_ok.1 hanswer
  obtain ⟨hwork, -⟩ := Work.run_on_eq_ok.1 hon
  obtain ⟨kept', d₁, hkept, hwork⟩ := Action.run_bind_eq_ok.1 hwork
  -- whether a deletion would be undone is asked after the categories
  have hsame : kept' = kept := by
    simp only at hwork
    split at hwork
    · obtain ⟨restricted', d₂, -, hwork⟩ := Action.run_bind_eq_ok.1 hwork
      exact (Prod.mk.inj (Action.run_pure_eq_ok.1 hwork).1).1
    · obtain ⟨restricted', d₂, -, hwork⟩ := Action.run_bind_eq_ok.1 hwork
      exact (Prod.mk.inj (Action.run_pure_eq_ok.1 hwork).1).1
  rw [hsame] at hkept
  exact ⟨tag, sub, m, kept, d₁, bind_ofOption_eq_ok.1 hfound, hsub, hload, hkept, rfl⟩

/-- A sync that is answered has written a copy that was there: `d` is the desk that the import of the
copy left, and the report tells of it. -/
structure Rewrites (b : Rulebook) (s : Store) (id : Uuid) (master : ContentKey)
    (assignments : List Assignment) (report : Report) (tag : ChildTag) (d : Desk) : Prop where
  imported : ∃ sub t masterTag tags m s₁ done,
    SyncBegun b s id master sub t masterTag tags m s₁ ∧
    (tags.find? fun tag => tag.migrationId = some (t.migrationId b.settings.marker master)) =
      some tag ∧
    (b.save (.importing m) .noop).run ⟨s₁, copyWanted tag assignments, [], []⟩ =
      (.ok (.saved done), d) ∧
    report.save = some done ∧
    report.messages = [resyncMessage
      (tag.content.text ++ " in course " ++ sub.childCourseId.hyphenated)
      (keptColumns (requestedColumns tag assignments) d.item) done.reconciliation]

theorem rewrites_of_sync {id : Uuid} {master : ContentKey} {assignments : List Assignment}
    {report : Report} (h : (sync b id master assignments).run s = (.ok report, s'))
    (hsaved : report.save ≠ none) :
    ∃ tag d answered, Rewrites b s id master assignments report tag d ∧
      report.childTags = [answered] ∧ answered.content = tag.content := by
  generalize hr : (Except.ok report : Result Report) = r at h
  cases sync_ends h with
  | stopped => cases hr
  | untracked => cases hr
  | unread => cases hr
  | copied hbegun hnone hmade =>
    obtain ⟨tag, -, rfl⟩ := map_eq_ok.1 hr.symm
    exact absurd rfl hsaved
  | @resynced sub t masterTag tags m s₁ _ existing saved hbegun hexisting himport =>
    cases saved with
    | error e => cases hr
    | ok done =>
      obtain ⟨found, hfound, rfl⟩ := map_eq_ok.1 hr.symm
      rw [saveImported, Action.run_bind_eq_ok] at himport
      obtain ⟨⟨outcome, d⟩, s₂, hon, himport⟩ := himport
      obtain ⟨hsave, -⟩ := Work.run_on_eq_ok.1 hon
      cases outcome with
      | rejected rejection => cases himport
      | saved did =>
        obtain ⟨rfl, -⟩ := Action.run_pure_eq_ok.1 himport
        have hcontent : found.content = existing.content := Store.content_of_childTag?
          (Store.isOpen_of_seen (bind_ofOption_eq_ok.1 hfound)).2
        exact ⟨existing, d, found,
          ⟨sub, t, masterTag, tags, m, s₁, did, hbegun, hexisting, hsave, rfl, rfl⟩, rfl, hcontent⟩

/-- The categories that a dry run answers tell which columns an import of the copy writes that is made
under the same locks and finds the same child tag: all that were to be written but those that they
govern. -/
theorem saved_iff_of_kept {tag : ChildTag} {assignments : List Assignment} {m m' : Migration}
    {kept : List Category} {id : String} {d₀ d : Desk} {done : SaveReport}
    (hid : tag.migrationId = some id) (hmarks : b.settings.marks id = true)
    (hclock : s'.supply.ShowsDates) (htag : s.seen.childTag? tag.content = .ok (some tag))
    (htag' : s'.stored.childTag? tag.content = .ok (some tag))
    (hlocks : (m'.find? id).getD .none = (m.find? id).getD .none)
    (hkept : (b.keptCategories (.importing m)).run ⟨s, copyItem tag ∅, [], []⟩ = (.ok kept, d₀))
    (hsave : (b.save (.importing m') .noop).run ⟨s', copyWanted tag assignments, [], []⟩ =
      (.ok (.saved done), d)) {column : String}
    (hpending : column ∈ (copyWanted tag assignments).pending.keys)
    (hstate : column ≠ tag.content.kind.stateColumn) :
    column ∉ d.item.saved.keys ↔ ∃ g ∈ kept, column ∈ (b.registry tag.content.kind).columns g := by
  have hkey := key_copyWanted tag assignments
  have hcopy := isCopy_copyWanted assignments hid hmarks
  have hcopy₀ : b.isCopy (copyItem tag ∅) = true := by
    simp [Rulebook.isCopy, copyItem, hid, hmarks]
  have hlocks₀ : (copyItem tag ∅).locksIn m = (m.find? id).getD .none := by
    simp [Item.locksIn, copyItem, Item.persisted, hid]
  obtain ⟨d₁, hreconciled, rfl⟩ := Rulebook.reconciled_of_saved hclock rfl hcopy
    (isNew_copyWanted tag assignments) hsave
  have hrecords : ∀ {o : Result (Option ChildTag)} {g : Category}, o = .ok (some tag) →
      ((∃ t, o = .ok (some t) ∧ t.Records (b.registry tag.content.kind) g) ↔
        tag.Records (b.registry tag.content.kind) g) := by
    rintro o g rfl
    simp
  have hforetold : ∀ g, g ∈ kept ↔
      ((copyWanted tag assignments).locksIn m').isLocked g = false ∧
        ∃ x ∈ (b.schemaOf (copyWanted tag assignments)).columns g,
          Desk.Records ⟨s', copyWanted tag assignments, [], []⟩ x := by
    intro g
    have hseen := hrecords (g := g) htag
    have hstored := Rulebook.exists_records_iff (b := b) (g := g)
      (d := ⟨s', copyWanted tag assignments, [], []⟩)
    simp only [Rulebook.schemaOf, hkey] at hstored
    rw [hrecords htag'] at hstored
    simp only [Rulebook.schemaOf, hkey]
    rw [hstored, ← hseen, (Rulebook.of_keptCategories rfl hcopy₀ hkept).2 g,
      locksIn_copyWanted m' assignments hid, hlocks, hlocks₀]
    rfl
  have hundone := (hreconciled.predicted hforetold).undone column hpending
    (by rw [Item.stateColumn, hkey]; exact hstate)
  rw [Rulebook.schemaOf, hkey] at hundone
  rw [← hundone, Dict.mem_keys_iff, Option.not_isSome_iff_eq_none]
  rfl

end Command

variable {b : Rulebook} {s₀ s₁ s₂ : Store}

/-- The sync that follows a preview of a copy, whatever it assigns, does not write the columns of the
categories that the preview answered, and writes all others. -/
theorem preview_predicts_sync {events : List Event} (hclock : s₀.supply.ShowsDates)
    (hempty : s₀.stored = .of .empty) {content : ContentKey} {previewed synced : Report} {id : Uuid}
    {master : ContentKey} {texts : List String} {answered : ChildTag}
    (hpreview : ((Request.preview content).run b).run (runEvents b events s₀) = (.ok previewed, s₁))
    (hsync : ((Request.sync id master texts).run b).run s₁ = (.ok synced, s₂))
    (hsaved : synced.save ≠ none) (hanswered : answered ∈ synced.childTags)
    (hcontent : answered.content = content) :
    ∃ kept assignments tag d, previewed.kept = some kept ∧
      Assignment.ofTexts texts = .ok assignments ∧ tag.content = content ∧
      Command.Rewrites b s₁ id master assignments synced tag d ∧
      ∀ column ∈ (Command.copyWanted tag assignments).pending.keys,
        column ≠ content.kind.stateColumn →
          (column ∉ d.item.saved.keys ↔ ∃ g ∈ kept, column ∈ (b.registry content.kind).columns g) := by
  have hs : (runEvents b events s₀).Orderly b :=
    orderly_runEvents (Store.orderly_of_empty hclock hempty) events
  obtain ⟨halike, tag, sub, m, kept, d₀, htag, hsub, hload, hkept, hanswer⟩ :=
    Command.of_preview hpreview
  -- the preview has changed nothing, and the sync finds the tag that it has shown
  have hmove : (runEvents b events s₀).Moves b (fun _ => True) s₁ := halike.move.moves
  have hready₁ : s₁.Ready := hmove.ready hs.ready
  obtain ⟨-, hheld⟩ := Store.isOpen_of_seen htag
  obtain rfl : tag.content = content := Store.content_of_childTag? hheld
  have htag₁ : s₁.stored.childTag? tag.content = .ok (some tag) := by rw [halike.stored, hheld]
  obtain ⟨assignments, s₁', hread, hrun⟩ := Action.run_bind_eq_ok.1 hsync
  obtain ⟨htexts, rfl⟩ := Action.run_liftM_eq_ok.1 hread
  obtain ⟨found, d, answered', hrewrites, hlisted, hsame⟩ := Command.rewrites_of_sync hrun hsaved
  rw [hlisted, List.mem_singleton] at hanswered
  obtain rfl := hanswered
  obtain ⟨sub', t, masterTag, tags, m', s₂', done, hbegun, hfind, hsave, -, -⟩ :=
    hrewrites.imported
  have hsyncing := hbegun.syncing hready₁ (hmove.keyed hs.keyed)
  have hmem : found ∈ tags := List.mem_of_find?_eq_some hfind
  obtain rfl := hsyncing.eq_of_content hmem htag₁ (hsame.symm.trans hcontent)
  have hid : found.migrationId = some (t.migrationId b.settings.marker master) := by
    simpa using List.find?_some hfind
  -- so both go by the subscription of the copy and the locks that are held for its template
  have hsub' : sub' = sub := by
    obtain ⟨rows, -, -, hours⟩ := hsyncing.contents
    have hsubscription : found.subscriptionId = id :=
      ((hours found).1 hmem).2.trans hsyncing.subscription
    have hfound := hbegun.subscription
    rw [Command.run_subscription, halike.seen, ← hsubscription] at hfound
    rw [Command.run_subscription] at hsub
    exact Except.ok.inj ((Prod.mk.inj hfound).1.symm.trans (Prod.mk.inj hsub).1)
  obtain rfl := hsub'
  obtain ⟨-, -, hfollows⟩ :=
    Command.of_followed hready₁.shown hbegun.subscription hbegun.template
  have hlocks : (m'.find? (t.migrationId b.settings.marker master)).getD .none =
      (m.find? (t.migrationId b.settings.marker master)).getD .none := by
    obtain ⟨rows, hrows, hlocks⟩ := Command.find?_of_load hs.ready.shown hs.keyed hload hfollows master
    obtain ⟨rows', hrows', hlocks'⟩ := hsyncing.locks
    rw [halike.stored, hrows] at hrows'
    obtain rfl := Except.ok.inj hrows'
    rw [hlocks, hlocks']
  refine ⟨kept, assignments, found, d, hanswer, htexts, rfl, hrewrites, ?_⟩
  intro column hpending hstate
  exact Command.saved_iff_of_kept hid (b.settings.marks_migrationId t master) hsyncing.ready.clock
    htag (by rw [hsyncing.childTag?, htag₁]) hlocks hkept hsave hpending hstate

/-- A dry run foretells the reconciliation that follows it, for any store, item and pending changes; and
a preview foretells which columns the sync of the copy that follows it writes, whatever it assigns. -/
theorem dryRun_predicts_sync (b : Rulebook) :
    (∀ {c : Context} {m : Migration} {d d₁ e e' : Desk} {kept : List Category}
      {r : Result Reconciliation}, d.store.supply.ShowsDates →
      d.store.seen.childTag? d.item.key = d.store.stored.childTag? d.item.key →
      c.migration = some m → (b.keptCategories c).run d = (.ok kept, d₁) → e = d ∨ e = d₁ →
      (b.reconcile c).run e = (r, e') → b.Foretells kept e r e') ∧
    ∀ {s₀ s₁ s₂ : Store} {events : List Event} {content : ContentKey} {previewed synced : Report}
      {id : Uuid} {master : ContentKey} {texts : List String} {answered : ChildTag},
      s₀.supply.ShowsDates → s₀.stored = .of .empty →
      ((Request.preview content).run b).run (runEvents b events s₀) = (.ok previewed, s₁) →
      ((Request.sync id master texts).run b).run s₁ = (.ok synced, s₂) → synced.save ≠ none →
      answered ∈ synced.childTags → answered.content = content →
      ∃ kept assignments tag d, previewed.kept = some kept ∧
        Assignment.ofTexts texts = .ok assignments ∧ tag.content = content ∧
        Command.Rewrites b s₁ id master assignments synced tag d ∧
        ∀ column ∈ (Command.copyWanted tag assignments).pending.keys,
          column ≠ content.kind.stateColumn → (column ∉ d.item.saved.keys ↔
            ∃ g ∈ kept, column ∈ (b.registry content.kind).columns g) :=
  ⟨Rulebook.foretells_reconcile, fun hclock hempty => preview_predicts_sync hclock hempty⟩

namespace Sample

/-- The copy of the page that was edited. -/
def editedCopy : ContentKey := ⟨.wikiPage, supply.ids 4⟩

/-- The store after the edit, and its preview. -/
def previewAfterEdit : Result Report × Store :=
  ((Request.preview editedCopy).run rulebook).run
    (runEvents rulebook syncAndEdit (.inMemory supply))

/-- A sync that assigns the body. -/
def syncAfterPreview : Result Report × Store :=
  ((Request.sync (supply.ids 1) page ["body=new"]).run rulebook).run previewAfterEdit.2

/-- The dry run answers the content; so a reconciliation takes back the new body, and the sync does not
write it. -/
theorem predicts_body :
    rulebook.Foretells [.content] (desk ["body"]) (.ok .fullyPreserved)
      ((rulebook.reconcile (.importing (importUnder (.only .settings)))).run (desk ["body"])).2 ∧
    ∃ synced tag d, syncAfterPreview.1 = .ok synced ∧ tag.content = editedCopy ∧
      Command.Rewrites rulebook previewAfterEdit.2 (supply.ids 1) page
        [("body", Assignment.valueOf "new")] synced tag d ∧
      ∀ column ∈ (Command.copyWanted tag [("body", Assignment.valueOf "new")]).pending.keys,
        column ≠ editedCopy.kind.stateColumn → (column ∉ d.item.saved.keys ↔
          ∃ g ∈ [Category.content], column ∈ (rulebook.registry editedCopy.kind).columns g) := by
  have hkept : (rulebook.keptCategories (.importing (importUnder (.only .settings)))).run
      (desk ["body"]) = (.ok [.content], _) := rfl
  have hreconcile : (rulebook.reconcile (.importing (importUnder (.only .settings)))).run
      (desk ["body"]) = (.ok .fullyPreserved, _) := rfl
  obtain ⟨previewed, hpreviewed, hlisted⟩ : ∃ report, previewAfterEdit.1 = .ok report ∧
      report.kept = some [.content] := by
    have hsome : previewAfterEdit.1.toOption.map Report.kept = some (some [.content]) := by
      decide +kernel
    obtain ⟨report, hreport, hkept⟩ := Option.map_eq_some_iff.1 hsome
    exact ⟨report, Result.toOption_eq_some.1 hreport, hkept⟩
  obtain ⟨synced, hsynced, hsaved, answered, hanswered, hcontent⟩ : ∃ report,
      syncAfterPreview.1 = .ok report ∧ report.save ≠ none ∧
        ∃ tag ∈ report.childTags, tag.content = editedCopy := by
    have hsome : syncAfterPreview.1.toOption.map
        (fun report => (report.save.isSome, report.childTags.map ChildTag.content)) =
          some (true, [editedCopy]) := by
      decide +kernel
    obtain ⟨report, hreport, hboth⟩ := Option.map_eq_some_iff.1 hsome
    obtain ⟨hsave, htags⟩ := Prod.mk.inj hboth
    refine ⟨report, Result.toOption_eq_some.1 hreport, ?_, ?_⟩
    · intro hnone
      rw [hnone] at hsave
      cases hsave
    · have hmem : editedCopy ∈ report.childTags.map ChildTag.content := by
        rw [htags]
        exact List.mem_cons_self
      exact List.mem_map.1 hmem
  have hsync : ((Request.sync (supply.ids 1) page ["body=new"]).run rulebook).run
      previewAfterEdit.2 = (.ok synced, syncAfterPreview.2) := Prod.ext hsynced rfl
  obtain ⟨kept, assignments, tag, d, hanswer, hread, htag, hrewrites, hwritten⟩ :=
    (dryRun_predicts_sync rulebook).2 showsDates_supply rfl (Prod.ext hpreviewed rfl) hsync hsaved
      hanswered hcontent
  rw [hlisted] at hanswer
  obtain rfl := Option.some.inj hanswer
  rw [ofTexts_body] at hread
  obtain rfl := Except.ok.inj hread
  exact ⟨(dryRun_predicts_sync rulebook).1 showsDates_supply rfl rfl hkept (.inl rfl) hreconcile,
    synced, tag, d, hsynced, htag, hrewrites, hwritten⟩

end Sample

end CourseBlueprint
