import CourseBlueprint.Proofs.Save.Recording

/-!
# Edits that survive imports

A user's edit of a copy is recorded on the child tag of the item's owner, and an import looks for
recorded changes on the tag of the item itself. An edit of a column survives the next import if the
item's own tag has recorded changes in a category of that column that is not locked
(`preserves_import_iff`). That is so whenever the item is its own owner.
-/

namespace CourseBlueprint

open Reconciliation (Plan)

namespace Rulebook

variable {b : Rulebook} {c : Context} {write : Persist} {d d' : Desk} {column : String}

/-! ## Recording -/

/-- What was recorded is on the tag of the item's owner, unless there is none. -/
theorem recordChanges_spec {merge : Merge} (hclock : d.store.supply.ShowsDates)
    (h : (b.recordChanges c none).run d = (.ok (some merge), d')) :
    b.skips c d.item = false ∧ ∃ s, d' = { d with store := s } ∧
      d.store.supply.Later s.supply ∧
      (merge = .missing ∨ ∃ tag, s.stored.childTag? d.item.tagOwner = .ok (some tag) ∧
        ∀ column, column ∈ b.columnsToRecord d.item none → column ∈ tag.changes) := by
  cases recorded hclock h with
  | missing hskips hlater => exact ⟨hskips, _, rfl, hlater, .inl rfl⟩
  | @known s tag hskips hlater htag hknown hstored =>
    exact ⟨hskips, s, rfl, hlater, .inr ⟨tag, by rw [hstored, htag], hknown⟩⟩
  | @grew s tag hskips hlater htag hstored =>
    obtain ⟨tag', htag', hchanges⟩ := (Store.childTag?_of_setsChanges hstored).1
    rw [Store.content_of_childTag? htag] at htag'
    refine ⟨hskips, s, rfl, hlater, .inr ⟨tag', htag', fun column hcolumn => ?_⟩⟩
    rw [hchanges, NameSet.mem_union, NameSet.mem_diff]
    by_cases hold : column ∈ tag.changes
    · exact .inl hold
    · exact .inr ⟨hcolumn, hold⟩

end Rulebook

/-- Whether the child tag of the item's owner records a column. -/
def Desk.OwnerRecords (d : Desk) (column : String) : Prop :=
  ∃ tag, d.store.stored.childTag? d.item.tagOwner = .ok (some tag) ∧ column ∈ tag.changes

namespace Rulebook

variable {b : Rulebook} {c : Context} {m : Migration} {write : Persist} {d d' : Desk}
  {column : String} {report : SaveReport}

/-- A user's save that recorded anything recorded every governed column that it saved, but for the
state. -/
theorem ownerRecords_of_saved (hclock : d.store.supply.ShowsDates)
    (h : (b.save .user write).run d = (.ok (.saved report), d'))
    (hmerge : report.merge = some .unchanged ∨ ∃ added, report.merge = some (.grew added))
    (hsaved : column ∈ d'.item.saved.keys) (hgoverned : column ∈ (b.schemaOf d'.item).allColumns)
    (hstate : column ≠ d'.item.stateColumn) :
    d'.store.supply.ShowsDates ∧ b.isCopy d'.item = true ∧ d'.OwnerRecords column := by
  cases stages h with
  | @saved k d₁ reconciliation d₂ merge _ hcheck hprepare hwrite hrecord =>
    rw [run_prepare_of_idle (.inr (.inl rfl))] at hprepare
    cases hprepare
    have hsupply : d₁.store.supply = d.store.supply := (unmoved_of_check hcheck).store.supply
    have hclock : d₁.store.supply.ShowsDates := hsupply ▸ hclock
    cases hnew : d₁.item.isNew with
    | true =>
      -- a new item is given a tag, and nothing is recorded
      have hnone : merge = none := by
        rw [hnew, record, if_pos rfl, Action.run_bind_eq_ok] at hrecord
        obtain ⟨_, _, _, hpure⟩ := hrecord
        exact (Action.run_pure_eq_ok.1 hpure).1.symm
      rcases hmerge with hmerge | ⟨added, hmerge⟩
      · cases hnone.symm.trans hmerge
      · cases hnone.symm.trans hmerge
    | false =>
      obtain ⟨merge', rfl, hne⟩ : ∃ merge', merge = some merge' ∧ merge' ≠ .missing := by
        rcases hmerge with hmerge | ⟨added, hmerge⟩
        · exact ⟨_, hmerge, Merge.noConfusion⟩
        · exact ⟨_, hmerge, Merge.noConfusion⟩
      rw [hnew, record, if_neg Bool.false_ne_true] at hrecord
      obtain ⟨hskips, s, rfl, hlater, hmissing | ⟨tag, htag, hchanges⟩⟩ :=
        recordChanges_spec (d := d₁.handOver.applied) hclock hrecord
      · exact absurd hmissing hne
      · refine ⟨hlater.showsDates hclock, ?_, tag, htag, ?_⟩
        · unfold skips at hskips
          rw [Bool.or_eq_false_iff, Bool.not_eq_false'] at hskips
          exact hskips.2
        · exact hchanges column (mem_columnsToRecord hsaved hgoverned hstate)

/-! ## Importing -/

/-- The import of a copy that is there ends with what its reconciliation left. -/
theorem reconciled_of_saved (hclock : d.store.supply.ShowsDates) (hc : c.migration = some m)
    (hcopy : b.isCopy d.item = true) (hnew : d.item.isNew = false)
    (h : (b.save c write).run d = (.ok (.saved report), d')) :
    ∃ d₁, b.Reconciled m d (.ok report.reconciliation) d₁ ∧ d' = d₁.handOver.applied := by
  obtain ⟨d₁, hreconcile, hd'⟩ := run_reconcile_of_saved hc hnew h
  exact ⟨d₁, reconciled hc hcopy hclock hreconcile, hd'⟩

/-- Whether an import takes back what it was to write to a column. -/
def Spares (b : Rulebook) (m : Migration) (d : Desk) (column : String) : Prop :=
  ∃ g, column ∈ (b.schemaOf d.item).columns g ∧ (d.item.locksIn m).isLocked g = false ∧
    ∃ x ∈ (b.schemaOf d.item).columns g, d.Records x

/-- Whether an import forgets that a column was changed, if the item's own tag records it. -/
def Forgets (b : Rulebook) (m : Migration) (d : Desk) (column : String) : Prop :=
  (∃ g, column ∈ (b.schemaOf d.item).columns g ∧ (d.item.locksIn m).isLocked g = true) ∨
    column = manuallyDeleted ∧ Plan.isUndelete d.item = true ∧
      (d.item.locksIn m).restrict (b.schemaOf d.item) .any = true

theorem exists_mem_takeBack_iff (hstate : column ≠ d.item.stateColumn) :
    (∃ tag, d.store.stored.childTag? d.item.key = .ok (some tag) ∧
        column ∈ (b.planIn m tag d.item).takeBack) ↔
      column ∈ d.item.pending.keys ∧ b.Spares m d column := by
  constructor
  · rintro ⟨tag, htag, htaken⟩
    rcases Plan.mem_takeBack_full.1 htaken with ⟨hpending, g, hcolumn, hfree, x, hx, hchanges⟩ |
      ⟨hcolumn, -⟩
    · exact ⟨hpending, g, hcolumn, hfree, x, hx, tag, htag, hchanges⟩
    · exact absurd hcolumn hstate
  · rintro ⟨hpending, g, hcolumn, hfree, x, hx, tag, htag, hchanges⟩
    exact ⟨tag, htag, Plan.mem_takeBack_full.2 (.inl ⟨hpending, g, hcolumn, hfree, x, hx, hchanges⟩)⟩

theorem mem_forget_iff {tag : ChildTag} (hchanges : column ∈ tag.changes) :
    column ∈ (b.planIn m tag d.item).forget ↔ b.Forgets m d column := by
  have hdeleted : column = manuallyDeleted →
      Plan.bringsBack tag d.item = Plan.isUndelete d.item := by
    rintro rfl
    rw [Plan.bringsBack, ChildTag.isManuallyDeleted, decide_eq_true hchanges, Bool.and_true]
  rw [planIn, Plan.mem_forget_full, Forgets]
  constructor
  · rintro (⟨-, hlocked⟩ | ⟨hcolumn, hback, hany⟩)
    · exact .inl hlocked
    · exact .inr ⟨hcolumn, by rw [← hdeleted hcolumn, hback], hany⟩
  · rintro (hlocked | ⟨hcolumn, hback, hany⟩)
    · exact .inl ⟨hchanges, hlocked⟩
    · exact .inr ⟨hcolumn, by rw [hdeleted hcolumn, hback], hany⟩

end Rulebook

/-! ## Surviving -/

/-- What is left of an edit that gave a column a value: the item has the value, the last save wrote
nothing to the column, and the owner's tag still records it. -/
structure Desk.Preserves (d : Desk) (column : String) (v : Json) : Prop where
  value : (d.item.value column).same v = true
  notWritten : d.item.saved.get? column = none
  recorded : d.OwnerRecords column

/-- An item that is worked on further after it was saved as `i`, with changes pending. -/
structure Item.Resumes (j i : Item) (column : String) : Prop where
  key : j.key = i.key
  migrationId : j.migrationId = i.migrationId
  owner : j.owner = i.owner
  isNew : j.isNew = false
  original : (j.original column).same (i.value column) = true

/-- Whatever attributes are given values, the item resumes the one that was saved. -/
theorem Item.resumes_setAll {i : Item} (hnew : i.isNew = false) (hpending : i.pending = ∅)
    (assignments : List (String × Json)) (column : String) :
    (i.setAll assignments).Resumes i column := by
  obtain ⟨attributes, pending, hframe⟩ := i.setAll_frame assignments
  refine ⟨by rw [hframe], by rw [hframe], by rw [hframe], by rw [hframe, ← hnew], ?_⟩
  have hnone : i.pending.get? column = none := by
    rw [hpending]
    rfl
  rw [← original_of_not_pending hnone]
  exact original_setAll assignments i column

namespace Rulebook

variable {b : Rulebook} {m : Migration} {d d' : Desk} {column : String} {v : Json}

theorem Reconciled.ownerRecords_iff {reconciliation : Reconciliation}
    (h : b.Reconciled m d (.ok reconciliation) d') (hrecorded : d.OwnerRecords column) :
    d'.OwnerRecords column ↔ (d.item.tagOwner = d.item.key → ¬ b.Forgets m d column) := by
  obtain ⟨tag, htag, hchanges⟩ := hrecorded
  obtain ⟨-, attributes, pending, kept, hitem⟩ := h.frame
  have howner : d'.item.tagOwner = d.item.tagOwner := by rw [hitem]; rfl
  have hkey : d'.item.key = d.item.key := by rw [hitem]
  by_cases hown : d.item.tagOwner = d.item.key
  · have hrecords : d'.OwnerRecords column ↔ d'.Records column := by
      rw [Desk.OwnerRecords, howner, hown, ← hkey]
      rfl
    rw [hown] at htag
    rw [hrecords, h.records_iff htag, mem_forget_iff hchanges, and_iff_right hchanges]
    exact ⟨fun hforgets _ => hforgets, fun hforgets => hforgets hown⟩
  · rw [Desk.OwnerRecords, howner, h.others hown]
    exact ⟨fun _ hown' => absurd hown' hown, fun _ => ⟨tag, htag, hchanges⟩⟩

/-- A change of the owner's tag survives a reconciliation if nothing is pending for its column or
that is taken back, unless the tag is the item's own and forgets it. -/
theorem Reconciled.preserves_iff {reconciliation : Reconciliation}
    (h : b.Reconciled m d (.ok reconciliation) d') (hstate : column ≠ d.item.stateColumn)
    (hrecorded : d.OwnerRecords column) (horiginal : (d.item.original column).same v = true) :
    d'.handOver.applied.Preserves column v ↔
      (d.item.pending.get? column = none ∨ b.Spares m d column) ∧
        (d.item.tagOwner = d.item.key → ¬ b.Forgets m d column) := by
  have hpending : d'.item.pending.get? column = none ↔
      d.item.pending.get? column = none ∨ b.Spares m d column := by
    rw [h.pending_eq_none_iff, exists_mem_takeBack_iff hstate, Dict.mem_keys_iff]
    cases d.item.pending.get? column with
    | none => simp
    | some change => simp
  rw [← hpending, ← h.ownerRecords_iff hrecorded]
  constructor
  · intro hpreserves
    exact ⟨hpreserves.notWritten, hpreserves.recorded⟩
  · rintro ⟨hnone, hrecords⟩
    refine ⟨?_, hnone, hrecords⟩
    show (d'.item.value column).same v = true
    rw [← Item.original_of_not_pending hnone, h.original_eq]
    exact horiginal

/-- A user's edit of a governed column that was recorded survives the next import of the item if
nothing is written to the column or that is taken back, unless the item's own tag forgets it. If the
item is its own owner and no category of the column is locked, it survives, but for a column of the
name that stands for a deletion. -/
theorem preserves_import_iff {write write' : Persist} {d d₁ d₂ d₃ : Desk}
    {report report' : SaveReport} (hclock : d.store.supply.ShowsDates)
    (huser : (b.save .user write).run d = (.ok (.saved report), d₁))
    (hmerge : report.merge = some .unchanged ∨ ∃ added, report.merge = some (.grew added))
    (hsaved : column ∈ d₁.item.saved.keys) (hgoverned : column ∈ (b.schemaOf d₁.item).allColumns)
    (hstate : column ≠ d₁.item.stateColumn) (hstore : d₂.store = d₁.store)
    (hresumes : d₂.item.Resumes d₁.item column)
    (himport : (b.save (.importing m) write').run d₂ = (.ok (.saved report'), d₃)) :
    (d₃.Preserves column (d₁.item.value column) ↔
        (d₂.item.pending.get? column = none ∨ b.Spares m d₂ column) ∧
          (d₂.item.tagOwner = d₂.item.key → ¬ b.Forgets m d₂ column)) ∧
      (d₂.item.tagOwner = d₂.item.key →
        (∀ g, column ∈ (b.schemaOf d₂.item).columns g →
          (d₂.item.locksIn m).isLocked g = false) →
        column ≠ manuallyDeleted → d₃.Preserves column (d₁.item.value column)) := by
  obtain ⟨hclock₁, hcopy, hrecorded⟩ :=
    ownerRecords_of_saved hclock huser hmerge hsaved hgoverned hstate
  have hschema : b.schemaOf d₂.item = b.schemaOf d₁.item := by
    rw [schemaOf, schemaOf, hresumes.key]
  have howner : d₂.item.tagOwner = d₁.item.tagOwner := by
    rw [Item.tagOwner, Item.tagOwner, hresumes.owner, hresumes.key]
  have hstate₂ : column ≠ d₂.item.stateColumn := by
    rw [Item.stateColumn, hresumes.key]
    exact hstate
  have hrecorded₂ : d₂.OwnerRecords column := by
    rw [Desk.OwnerRecords, hstore, howner]
    exact hrecorded
  have hcopy₂ : b.isCopy d₂.item = true := by
    rw [isCopy, hresumes.migrationId]
    exact hcopy
  obtain ⟨d₂', hreconciled, rfl⟩ :=
    reconciled_of_saved (hstore ▸ hclock₁) rfl hcopy₂ hresumes.isNew himport
  have hiff := hreconciled.preserves_iff hstate₂ hrecorded₂ hresumes.original
  refine ⟨hiff, fun hown hfree hdeleted => hiff.2 ⟨.inr ?_, fun _ hforgets => ?_⟩⟩
  · obtain ⟨g, hg⟩ := Schema.mem_allColumns.1 hgoverned
    rw [← hschema] at hg
    obtain ⟨tag, htag, hchanges⟩ := hrecorded₂
    rw [hown] at htag
    exact ⟨g, hg, hfree g hg, column, hg, tag, htag, hchanges⟩
  · rcases hforgets with ⟨g, hg, hlocked⟩ | ⟨hcolumn, -⟩
    · rw [hfree g hg] at hlocked
      cases hlocked
    · exact hdeleted hcolumn

end Rulebook

namespace Sample

/-- A migration that knows no locks. -/
def unlockedImport : Migration := Migration.new subscription

/-- The desk after a user saved what was pending. -/
def afterEdit (d : Desk) : Desk := ((rulebook.save .user .noop).run d).2

/-- The same desk with values that an import brings. -/
def incoming (d : Desk) (assignments : List (String × Json)) : Desk :=
  { d with item := d.item.setAll assignments }

/-- The new body of the page is kept when an import brings another. -/
theorem preserves_body :
    ((rulebook.save (.importing unlockedImport) .noop).run
      (incoming (afterEdit (desk [])) [("body", .string "other")])).2.Preserves "body"
        (.string "new") := by
  have huser : (rulebook.save .user .noop).run (desk []) =
      (.ok (.saved ⟨.accepted, .noOverlap, some (.grew (.ofList ["body"]))⟩),
        afterEdit (desk [])) := rfl
  have hstore : (incoming (afterEdit (desk [])) [("body", .string "other")]).store =
      (afterEdit (desk [])).store := rfl
  have hresumes : (incoming (afterEdit (desk [])) [("body", .string "other")]).item.Resumes
      (afterEdit (desk [])).item "body" := Item.resumes_setAll rfl rfl _ _
  have himport : (rulebook.save (.importing unlockedImport) .noop).run
      (incoming (afterEdit (desk [])) [("body", .string "other")]) =
      (.ok (.saved ⟨.unrestricted, .fullyPreserved, none⟩), _) := rfl
  exact (Rulebook.preserves_import_iff showsDates_supply huser (.inr ⟨_, rfl⟩) (by decide)
    (by decide) (by decide) hstore hresumes himport).2 rfl (fun g _ => by cases g <;> rfl) (by decide)

/-- The copy of an assignment's line item, which records on the tag of the assignment's copy. -/
def lineItem : Item :=
  { Item.persisted ⟨.lineItem, ⟨6⟩⟩ ∅ with
    migrationId := some migrationId
    owner := some ⟨.assignment, ⟨7⟩⟩ }.set "label" (.string "new")

/-- The line item's copy at work, where both copies have a tag. -/
def lineItemDesk : Desk :=
  ⟨store [tag ⟨.lineItem, ⟨6⟩⟩ [], tag ⟨.assignment, ⟨7⟩⟩ []], lineItem, [], []⟩

/-- An edit that was recorded on the tag of an owner is lost in an import that locks nothing. -/
theorem not_preserves_label :
    ¬ ∀ (b : Rulebook) (m : Migration) (write write' : Persist) (d d₁ d₂ d₃ : Desk)
      (report report' : SaveReport) (tag : ChildTag) (column : String),
      d.store.supply.ShowsDates → (b.save .user write).run d = (.ok (.saved report), d₁) →
      (report.merge = some .unchanged ∨ ∃ added, report.merge = some (.grew added)) →
      column ∈ d₁.item.saved.keys → column ∈ (b.schemaOf d₁.item).allColumns →
      column ≠ d₁.item.stateColumn → d₂.store = d₁.store → d₂.item.Resumes d₁.item column →
      d₁.store.stored.childTag? d₁.item.tagOwner = .ok (some tag) →
      m.subscription.id = tag.subscriptionId → (∀ id, m.find? id = none) →
      (b.save (.importing m) write').run d₂ = (.ok (.saved report'), d₃) →
      d₃.Preserves column (d₁.item.value column) := by
  intro h
  have huser : (rulebook.save .user .noop).run lineItemDesk =
      (.ok (.saved ⟨.accepted, .noOverlap, some (.grew (.ofList ["label"]))⟩),
        afterEdit lineItemDesk) := rfl
  have hstore : (incoming (afterEdit lineItemDesk) [("label", .string "other")]).store =
      (afterEdit lineItemDesk).store := rfl
  have hresumes : (incoming (afterEdit lineItemDesk) [("label", .string "other")]).item.Resumes
      (afterEdit lineItemDesk).item "label" := Item.resumes_setAll rfl rfl _ _
  have himport : (rulebook.save (.importing unlockedImport) .noop).run
      (incoming (afterEdit lineItemDesk) [("label", .string "other")]) =
      (.ok (.saved ⟨.unrestricted, .noOverlap, none⟩), _) := rfl
  have hpreserves := h rulebook unlockedImport .noop .noop lineItemDesk (afterEdit lineItemDesk) _ _
    _ _ _ "label" showsDates_supply huser (.inr ⟨_, rfl⟩) (by decide) (by decide) (by decide) hstore
    hresumes rfl rfl (fun _ => rfl) himport
  cases hpreserves.notWritten

end Sample

end CourseBlueprint
