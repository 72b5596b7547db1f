import CourseBlueprint.Proofs.Save.Evolution
import CourseBlueprint.Proofs.Save.Recording

/-!
# What saves do to child tags

A save works on one child tag at most, in the direction that its context permits (`Permits`): a
user's save adds columns to the tag of the item's owner; an import gives the item a tag without
changes, or removes those that the locks in force overrule from the tag it has; a save that is not
tracked does nothing. `permits_save` shows it for one save, and `saveAll_permits` for each of any
number of saves in one store, and for what all of them together have done to a tag.
-/

namespace CourseBlueprint

namespace Rulebook

/-- Whether the locks in force on the item overrule what the child course has changed: the column is
governed by a category with a lock, or it stands for a deletion and anything is restricted. -/
def Overrules (b : Rulebook) (c : Context) (d : Desk) (column : String) : Prop :=
  (∃ r d', (restrictionsInForce c).run d = (.ok r, d') ∧
      ∃ g ∈ (b.schemaOf d.item).categories, column ∈ (b.schemaOf d.item).columns g ∧
        r.isLocked g = true) ∨
    column = manuallyDeleted ∧ ∃ d', (b.isRestricted c .any).run d = (.ok true, d')

/-- What a save may leave of the rows that are held. -/
inductive Permits (b : Rulebook) (c : Context) (d : Desk) : Stored → Prop
  /-- All of them. -/
  | unchanged : Permits b c d d.store.stored
  /-- One more, in an import of a copy that has none: the tag of the copy, without changes. -/
  | created {m : Migration} {rows : List ChildTag} {tag : ChildTag} (hc : c.migration = some m)
      (hcopy : b.isCopy d.item = true) (hrows : d.store.stored.childTags = .ok rows)
      (hnone : Tables.childTagIn rows d.item.key = none)
      (hsubscription : tag.subscriptionId = m.subscription.id) (hcontent : tag.content = d.item.key)
      (hmigrationId : tag.migrationId = d.item.migrationId) (hchanges : tag.changes = ∅) :
      Permits b c d (d.store.stored.withChildTags (rows ++ [tag]))
  /-- The tag of the item without changes that are overruled, in an import. -/
  | removed {m : Migration} {tag : ChildTag} {columns : NameSet} {st : Stored}
      (hc : c.migration = some m) (hcontent : tag.content = d.item.key)
      (hoverruled : ∀ x ∈ columns, b.Overrules c d x)
      (hstored : d.store.stored.SetsChanges tag (tag.changes \ columns) st) : Permits b c d st
  /-- The tag of the item's owner with more changes, in a save by a user. -/
  | added {tag : ChildTag} {columns : NameSet} {st : Stored} (hc : c.migration = none)
      (htracked : c.untracked = false) (howner : tag.content = d.item.tagOwner)
      (hgoverned : ∀ x ∈ columns, x ∈ (b.schemaOf d.item).allColumns ∨ x = manuallyDeleted)
      (hstored : d.store.stored.SetsChanges tag (tag.changes ∪ columns) st) : Permits b c d st

variable {b : Rulebook} {c : Context} {m : Migration} {write : Persist} {d d₁ d' : Desk}

/-! ## One save -/

/-- What found or created the tag of a copy for an import. -/
theorem permits_of_found {s : Store} {r : Result ChildTag} (hc : c.migration = some m)
    (hcopy : b.isCopy d.item = true)
    (h : Store.FoundOrCreated d.store m.subscription.id d.item.key d.item.migrationId r s) :
    b.Permits c d s.stored := by
  rcases h.ends with ⟨-, -, hstored⟩ | ⟨tag, -, -, -, hstored | ⟨rows, hrows, hnone, hsubscription,
    hcontent, hmigrationId, hchanges, hstored⟩⟩
  · rw [hstored]
    exact .unchanged
  · rw [hstored]
    exact .unchanged
  · rw [hstored]
    exact .created hc hcopy hrows hnone hsubscription hcontent hmigrationId hchanges

/-- What a plan forgets is overruled by the locks that the import goes by. -/
theorem overrules_of_mem_forget {tag : ChildTag} {column : String} (hc : c.migration = some m)
    (hcopy : b.isCopy d.item = true) (h : column ∈ (b.planIn m tag d.item).forget) :
    b.Overrules c d column := by
  have hlocks := run_restrictionsInForce_import (d := d) hc
  rcases Reconciliation.Plan.mem_forget_full.1 h with ⟨-, g, hcolumn, hlocked⟩ | ⟨hdeleted, -, hany⟩
  · obtain ⟨columns, hentry, -⟩ := Schema.mem_columns.1 hcolumn
    have hregistered : g ∈ (b.schemaOf d.item).categories := List.mem_map.2 ⟨_, hentry, rfl⟩
    exact .inl ⟨_, _, hlocks, g, hregistered, hcolumn, hlocked⟩
  · refine .inr ⟨hdeleted, d.withLocks (d.item.locksIn m), ?_⟩
    rw [run_isRestricted hcopy hlocks, hany]

/-- What the reconciliation of an import did. -/
theorem permits_of_reconciled {r : Result Reconciliation} (hc : c.migration = some m)
    (hcopy : b.isCopy d.item = true) (h : b.Reconciled m d r d') :
    b.Permits c d d'.store.stored := by
  cases h with
  | unfound hfound => exact permits_of_found hc hcopy hfound
  | clean hfound => exact permits_of_found hc hcopy hfound
  | refused hfound hlater hstored =>
    rw [Desk.store_withLocks, hstored]
    exact permits_of_found hc hcopy hfound
  | @carriedOut tag s s' hfound hchanges hlater hopen hstored =>
    rw [(Reconciled.takenBack_frame _ _ _).1, Desk.store_withLocks]
    rcases hstored with ⟨-, hstored⟩ | hstored
    · rw [hstored]
      exact permits_of_found hc hcopy hfound
    · -- a tag with changes was not created for this import
      have hheld : s.stored = d.store.stored := by
        rcases hfound.ends with ⟨e, he, -⟩ | ⟨tag', htag', -, -, hsame | ⟨rows, -, -, -, -, -,
          hnone, -⟩⟩
        · cases he
        · exact hsame
        · cases htag'
          rw [hnone] at hchanges
          cases hchanges
      have hcontent : tag.content = d.item.key := Store.content_of_childTag? hfound.held.2
      rw [hheld] at hstored
      exact .removed hc hcontent (fun x hx => overrules_of_mem_forget hc hcopy hx) hstored

/-- Tagging an item in an import does nothing to the store, or finds or creates the item's tag. -/
theorem of_tagCopy {r : Result (Option ChildTag)} (hclock : d.store.supply.ShowsDates)
    (hc : c.migration = some m) (h : (b.tagCopy c).run d = (r, d')) :
    d'.store = d.store ∨ b.isCopy d.item = true ∧ ∃ found,
      Store.FoundOrCreated d.store m.subscription.id d.item.key d.item.migrationId found
        d'.store := by
  rw [tagCopy, Action.run_bind_ok (Work.run_item _)] at h
  simp only [hc] at h
  cases hcopy : b.isCopy d.item with
  | false =>
    rw [hcopy] at h
    obtain ⟨rfl, rfl⟩ := Prod.mk.inj h
    exact .inl rfl
  | true =>
    simp only [hcopy, Bool.not_true, Bool.false_eq_true, if_false] at h
    rw [Action.run_bind] at h
    rcases hrun : (Store.findOrCreateChildTag m.subscription.id d.item.key
      d.item.migrationId).run d.store with ⟨found, s⟩
    rw [Work.run_store_of hrun] at h
    have hstore : d'.store = s := by
      cases found with
      | error e => rw [← (Prod.mk.inj h).2]
      | ok tag => rw [← (Prod.mk.inj h).2]
    rw [hstore]
    exact .inr ⟨rfl, found, Store.findOrCreateChildTag_spec hclock hrun⟩

/-- What an import did that gave a copy it has made its tag. -/
theorem permits_of_tagCopy {r : Result (Option ChildTag)} (hclock : d.store.supply.ShowsDates)
    (hc : c.migration = some m) (h : (b.tagCopy c).run d.handOver.applied = (r, d')) :
    b.Permits c d d'.store.stored := by
  rcases of_tagCopy (d := d.handOver.applied) hclock hc h with hstore | ⟨hcopy, found, hfound⟩
  · rw [hstore]
    exact .unchanged
  · exact permits_of_found hc hcopy hfound

/-- What the recording of a user's save did, where the desk is as it was but for the item's
changes. -/
theorem permits_of_recorded {r : Result (Option Merge)} (hc : c.migration = none)
    (hstored : d₁.store.stored = d.store.stored) (hkey : d₁.item.key = d.item.key)
    (howner : d₁.item.tagOwner = d.item.tagOwner) (h : b.Recorded c d₁ r d') :
    b.Permits c d d'.store.stored := by
  have hsame : ∀ s : Store, s.stored = d₁.store.stored → b.Permits c d s.stored := by
    intro s hs
    rw [hs, hstored]
    exact .unchanged
  cases h with
  | untracked => exact hsame _ rfl
  | nothing => exact hsame _ rfl
  | refused hskips hlater hs => exact hsame _ hs
  | missing hskips hlater hs => exact hsame _ hs
  | known hskips hlater htag hknown hs => exact hsame _ hs
  | @grew s tag hskips hlater htag hs =>
    have htracked : c.untracked = false := by
      unfold skips at hskips
      rw [Bool.or_eq_false_iff, Bool.or_eq_false_iff] at hskips
      exact hskips.1.2
    have hcontent : tag.content = d.item.tagOwner := by
      rw [Store.content_of_childTag? htag, howner]
    rw [hstored] at hs
    refine .added hc htracked hcontent (fun x hx => ?_) hs
    have hgoverned := governed_of_mem_columnsToRecord (NameSet.mem_diff.1 hx).1
    rw [schemaOf, hkey] at hgoverned
    exact hgoverned

section Stages

variable {k : Check} {r : Result Reconciliation} (hclock : d.store.supply.ShowsDates)
  (hcheck : (b.check c).run d = (.ok (.inl k), d₁))
include hclock hcheck

/-- Up to the write, only the import of a copy that is there has done anything. -/
theorem permits_of_prepare {d₂ : Desk} (hprepare : (b.prepare c).run d₁ = (r, d₂)) :
    b.Permits c d d₂.store.stored := by
  by_cases hidle : d₁.item.isNew = true ∨ c.migration = none ∨ b.isCopy d₁.item = false
  · rw [run_prepare_of_idle hidle] at hprepare
    obtain ⟨rfl, rfl⟩ := Prod.mk.inj hprepare
    rw [(unmoved_of_check hcheck).store.stored]
    exact .unchanged
  · obtain ⟨hnew, himport⟩ := not_or.1 hidle
    obtain ⟨hmigration, hcopy⟩ := not_or.1 himport
    obtain ⟨m, hc⟩ := Option.ne_none_iff_exists'.1 hmigration
    rw [run_check_import hc] at hcheck
    obtain ⟨-, rfl⟩ := Prod.mk.inj hcheck
    have hcopy : b.isCopy d.item = true := by simpa using hcopy
    rw [run_prepare_of_not_isNew (Bool.eq_false_iff.2 hnew)] at hprepare
    exact permits_of_reconciled hc hcopy (reconciled hc hcopy hclock hprepare)

/-- After the write, an import has only tagged what it made, and any other save recorded. -/
theorem permits_of_record {reconciliation : Reconciliation} {d₂ d₃ : Desk}
    {rm : Result (Option Merge)} (hprepare : (b.prepare c).run d₁ = (.ok reconciliation, d₂))
    (hrecord : (b.record c d₁.item.isNew).run d₂.handOver.applied = (rm, d₃)) :
    b.Permits c d d₃.store.stored := by
  cases hnew : d₁.item.isNew with
  | true =>
    rw [run_prepare_of_isNew hnew] at hprepare
    obtain ⟨-, rfl⟩ := Prod.mk.inj hprepare
    rw [hnew, record, if_pos rfl, Action.run_bind] at hrecord
    rcases htagCopy : (b.tagCopy c).run d₁.handOver.applied with ⟨rt, d₄⟩
    have hd₄ : d₄ = d₃ := by
      rw [htagCopy] at hrecord
      cases rt with
      | error e => exact (Prod.mk.inj hrecord).2
      | ok found => exact (Prod.mk.inj hrecord).2
    subst hd₄
    cases hc : c.migration with
    | none =>
      rw [tagCopy, Action.run_bind_ok (Work.run_item _)] at htagCopy
      simp only [hc] at htagCopy
      obtain ⟨-, rfl⟩ := Prod.mk.inj htagCopy
      show b.Permits c d d₁.store.stored
      rw [(unmoved_of_check hcheck).store.stored]
      exact .unchanged
    | some m =>
      rw [run_check_import hc] at hcheck
      obtain ⟨-, rfl⟩ := Prod.mk.inj hcheck
      exact permits_of_tagCopy hclock hc htagCopy
  | false =>
    rw [hnew, record, if_neg Bool.false_ne_true] at hrecord
    cases hc : c.migration with
    | none =>
      rw [run_prepare_of_idle (.inr (.inl hc))] at hprepare
      obtain ⟨-, rfl⟩ := Prod.mk.inj hprepare
      have hunmoved := unmoved_of_check hcheck
      obtain ⟨kept, hitem⟩ := hunmoved.item
      have hclock₁ : d₁.handOver.applied.store.supply.ShowsDates := by
        show d₁.store.supply.ShowsDates
        rw [hunmoved.store.supply]
        exact hclock
      have hkey : d₁.handOver.applied.item.key = d.item.key := by
        show d₁.item.key = d.item.key
        rw [hitem]
      have howner : d₁.handOver.applied.item.tagOwner = d.item.tagOwner := by
        show d₁.item.tagOwner = d.item.tagOwner
        rw [hitem]
        rfl
      have hrecorded := recorded (d := d₁.handOver.applied) hclock₁ hrecord
      have hstored : d₁.handOver.applied.store.stored = d.store.stored := hunmoved.store.stored
      exact permits_of_recorded hc hstored hkey howner hrecorded
    | some m =>
      have hskips : b.skips c d₂.handOver.applied.item = true := by
        simp [skips, Context.isImport, hc]
      rw [run_recordChanges_of_skips hskips] at hrecord
      obtain ⟨-, rfl⟩ := Prod.mk.inj hrecord
      have hpermits := permits_of_prepare hclock hcheck hprepare
      exact hpermits

end Stages

/-- A save does to the rows what its context permits, whatever becomes of it. -/
theorem permits_save {r : Result SaveOutcome} (hclock : d.store.supply.ShowsDates)
    (h : (b.save c write).run d = (r, d')) : b.Permits c d d'.store.stored := by
  cases stages h with
  | unchecked hcheck =>
    rw [(unmoved_of_check hcheck).store.stored]
    exact .unchanged
  | rejected hcheck =>
    rw [(unmoved_of_check hcheck).store.stored]
    exact .unchanged
  | unprepared hcheck hprepare => exact permits_of_prepare hclock hcheck hprepare
  | unwritten hcheck hprepare =>
    have hpermits := permits_of_prepare hclock hcheck hprepare
    exact hpermits
  | unrecorded hcheck hprepare _ hrecord => exact permits_of_record hclock hcheck hprepare hrecord
  | saved hcheck hprepare _ hrecord => exact permits_of_record hclock hcheck hprepare hrecord

/-- The import of an item that was never saved leaves the tags there were. -/
theorem childTag?_of_isNew {r : Result SaveOutcome} (hclock : d.store.supply.ShowsDates)
    (hc : c.migration = some m) (hnew : d.item.isNew = true) (h : (b.save c write).run d = (r, d'))
    {content : ContentKey} {tag : ChildTag}
    (htag : d.store.stored.childTag? content = .ok (some tag)) :
    d'.store.stored.childTag? content = .ok (some tag) := by
  have hchecked : ∀ {k : Check ⊕ Rejection} {d₁ : Desk},
      (b.check c).run d = (.ok k, d₁) → k = .inl .unrestricted ∧ d₁ = d := by
    intro k d₁ hcheck
    rw [run_check_import hc] at hcheck
    obtain ⟨hk, hd⟩ := Prod.mk.inj hcheck
    exact ⟨(Except.ok.inj hk).symm, hd.symm⟩
  have hrecorded : ∀ {rm : Result (Option Merge)} {d₃ : Desk},
      (b.record c d.item.isNew).run d.handOver.applied = (rm, d₃) →
        d₃.store.stored.childTag? content = .ok (some tag) := by
    intro rm d₃ hrecord
    have htagged : ∀ {rt : Result (Option ChildTag)} {d₄ : Desk},
        (b.tagCopy c).run d.handOver.applied = (rt, d₄) →
          d₄.store.stored.childTag? content = .ok (some tag) := by
      intro rt d₄ htagCopy
      rcases of_tagCopy (d := d.handOver.applied) hclock hc htagCopy with hsame | ⟨-, found, hfound⟩
      · rw [hsame]
        exact htag
      · exact hfound.childTag?_of_held htag
    rw [hnew, record, if_pos rfl] at hrecord
    rcases Action.run_bind_ends hrecord with ⟨e, htagCopy, -⟩ | ⟨found, d₄, htagCopy, hpure⟩
    · exact htagged htagCopy
    · obtain ⟨-, rfl⟩ := Prod.mk.inj hpure
      exact htagged htagCopy
  cases stages h with
  | unchecked hcheck =>
    rw [run_check_import hc] at hcheck
    cases hcheck
  | rejected hcheck => cases (hchecked hcheck).1
  | unprepared hcheck hprepare =>
    obtain ⟨-, rfl⟩ := hchecked hcheck
    rw [run_prepare_of_isNew hnew] at hprepare
    cases hprepare
  | unwritten hcheck hprepare =>
    obtain ⟨-, rfl⟩ := hchecked hcheck
    rw [run_prepare_of_isNew hnew] at hprepare
    obtain ⟨-, rfl⟩ := Prod.mk.inj hprepare
    exact htag
  | unrecorded hcheck hprepare hwrite hrecord =>
    obtain ⟨-, rfl⟩ := hchecked hcheck
    rw [run_prepare_of_isNew hnew] at hprepare
    obtain ⟨-, rfl⟩ := Prod.mk.inj hprepare
    exact hrecorded hrecord
  | saved hcheck hprepare hwrite hrecord =>
    obtain ⟨-, rfl⟩ := hchecked hcheck
    rw [run_prepare_of_isNew hnew] at hprepare
    obtain ⟨-, rfl⟩ := Prod.mk.inj hprepare
    exact hrecorded hrecord

/-- How the changes of a tag have become others in a save: a column they have lost was overruled in
an import of the item itself, and one they have got was changed by a user in an item that the tag
stands for. -/
structure Explains (b : Rulebook) (c : Context) (d : Desk) (tag : ChildTag) (changes : NameSet) :
    Prop where
  lost : ∀ x ∈ tag.changes, ¬ x ∈ changes →
    c.isImport = true ∧ d.item.key = tag.content ∧ b.Overrules c d x
  got : ∀ x ∈ changes, ¬ x ∈ tag.changes →
    c.migration = none ∧ c.untracked = false ∧ d.item.tagOwner = tag.content

theorem Explains.refl (tag : ChildTag) : b.Explains c d tag tag.changes where
  lost := fun _ hx hnot => absurd hx hnot
  got := fun _ hx hnot => absurd hx hnot

/-- A tag that is held stays, and a save explains what has become of its changes. -/
theorem Permits.childTag? {st : Stored} (h : b.Permits c d st) {content : ContentKey}
    {tag : ChildTag} (htag : d.store.stored.childTag? content = .ok (some tag)) :
    ∃ changes time, st.childTag? content = .ok (some (tag.withChanges changes time)) ∧
      b.Explains c d tag changes := by
  have hsame : st.childTag? content = .ok (some tag) → ∃ changes time,
      st.childTag? content = .ok (some (tag.withChanges changes time)) ∧
        b.Explains c d tag changes :=
    fun hst => ⟨tag.changes, tag.updatedAt, hst, .refl tag⟩
  -- a tag that is worked on is the one that is held, or that of other content
  have hset : ∀ {old : ChildTag} {changes : NameSet},
      d.store.stored.SetsChanges old changes st → (old = tag → b.Explains c d old changes) →
      ∃ changes time, st.childTag? content = .ok (some (tag.withChanges changes time)) ∧
        b.Explains c d tag changes := by
    intro old changes hstored hexplains
    by_cases hkey : content = old.content
    · obtain ⟨rows, time, hrows, hold, rfl⟩ := hstored
      rw [hkey, Store.childTag?_of_rows hrows, hold] at htag
      obtain rfl := Option.some.inj (Except.ok.inj htag)
      refine ⟨changes, time, ?_, hexplains rfl⟩
      rw [Store.childTag?_withChildTags, Store.childTagIn_withChanges hold, if_pos hkey]
    · exact hsame (by rw [(Store.childTag?_of_setsChanges hstored).2 content hkey, htag])
  cases h with
  | unchanged => exact hsame htag
  | created hc hcopy hrows =>
    rw [Store.childTag?_of_rows hrows] at htag
    refine hsame ?_
    rw [Store.childTag?_withChildTags, Tables.childTagIn_append, Except.ok.inj htag]
    rfl
  | @removed m old columns _ hc hcontent hoverruled hstored =>
    refine hset hstored fun _ => ⟨fun x hx hnot => ?_, fun x hx hnot => ?_⟩
    · have hremoved : x ∈ columns := by
        by_cases hcolumn : x ∈ columns
        · exact hcolumn
        · exact absurd (NameSet.mem_diff.2 ⟨hx, hcolumn⟩) hnot
      have himport : c.isImport = true := by
        rw [Context.isImport, hc]
        rfl
      exact ⟨himport, hcontent.symm, hoverruled x hremoved⟩
    · exact absurd (NameSet.mem_diff.1 hx).1 hnot
  | @added old columns _ hc htracked howner hgoverned hstored =>
    refine hset hstored fun _ => ⟨fun x hx hnot => ?_, fun x hx hnot => ?_⟩
    · exact absurd (NameSet.mem_union.2 (.inl hx)) hnot
    · exact ⟨hc, htracked, howner.symm⟩

end Rulebook

/-! ## Any number of saves -/

/-- A save of an item: what it is made for, and how the item is written. -/
structure SaveCall where
  context : Context
  item : Item
  write : Persist

/-- The desk at which a call begins. -/
def SaveCall.desk (call : SaveCall) (s : Store) : Desk := ⟨s, call.item, [], []⟩

namespace Rulebook

/-- The store after a call, whatever became of it. -/
def afterSave (b : Rulebook) (s : Store) (call : SaveCall) : Store :=
  ((b.save call.context call.write).run (call.desk s)).2.store

/-- The store after several calls. -/
def saveAll (b : Rulebook) (s : Store) (calls : List SaveCall) : Store := calls.foldl b.afterSave s

/-- How the changes of a tag have become others in several calls: each column they have lost or got
was lost or got in one of them. -/
structure Accounts (b : Rulebook) (s : Store) (calls : List SaveCall) (tag : ChildTag)
    (changes : NameSet) : Prop where
  lost : ∀ x ∈ tag.changes, ¬ x ∈ changes → ∃ before call after, calls = before ++ call :: after ∧
    call.context.isImport = true ∧ call.item.key = tag.content ∧
      b.Overrules call.context (call.desk (b.saveAll s before)) x
  got : ∀ x ∈ changes, ¬ x ∈ tag.changes → ∃ call ∈ calls, call.context.migration = none ∧
    call.context.untracked = false ∧ call.item.tagOwner = tag.content

variable {b : Rulebook} {s : Store}

theorem permits_afterSave (hclock : s.supply.ShowsDates) (call : SaveCall) :
    b.Permits call.context (call.desk s) (b.afterSave s call).stored :=
  permits_save (d := call.desk s) hclock (Prod.eta ((b.save call.context call.write).run _)).symm

theorem showsDates_afterSave (hclock : s.supply.ShowsDates) (call : SaveCall) :
    (b.afterSave s call).supply.ShowsDates := by
  have hevolves : s.Evolves (b.afterSave s call) :=
    Action.keeps_iff.1 (evolves_save hclock call.write) (call.desk s) (.refl s)
  exact hevolves.supply.showsDates hclock

theorem showsDates_saveAll (hclock : s.supply.ShowsDates) (calls : List SaveCall) :
    (b.saveAll s calls).supply.ShowsDates := by
  induction calls generalizing s with
  | nil => exact hclock
  | cons call calls ih => exact ih (showsDates_afterSave hclock call)

/-- A tag that is held stays, and the calls account for what has become of its changes. -/
theorem childTag?_saveAll (hclock : s.supply.ShowsDates) (calls : List SaveCall)
    {content : ContentKey} {tag : ChildTag}
    (htag : s.stored.childTag? content = .ok (some tag)) :
    ∃ changes time, (b.saveAll s calls).stored.childTag? content =
        .ok (some (tag.withChanges changes time)) ∧ b.Accounts s calls tag changes := by
  induction calls generalizing s tag with
  | nil =>
    exact ⟨tag.changes, tag.updatedAt, htag, fun _ hx hnot => absurd hx hnot,
      fun _ hx hnot => absurd hx hnot⟩
  | cons call calls ih =>
    obtain ⟨between, time, hbetween, hfirst⟩ := (permits_afterSave hclock call).childTag? htag
    obtain ⟨changes, time', hend, hrest⟩ := ih (showsDates_afterSave hclock call) hbetween
    refine ⟨changes, time', hend, fun x hx hnot => ?_, fun x hx hnot => ?_⟩
    · by_cases hbetween : x ∈ between
      · obtain ⟨before, call', after, rfl, hlost⟩ := hrest.lost x hbetween hnot
        exact ⟨call :: before, call', after, rfl, hlost⟩
      · exact ⟨[], call, calls, rfl, hfirst.lost x hx hbetween⟩
    · by_cases hbetween : x ∈ between
      · exact ⟨call, List.mem_cons_self, hfirst.got x hbetween hnot⟩
      · obtain ⟨call', hmem, hgot⟩ := hrest.got x hx hbetween
        exact ⟨call', List.mem_cons_of_mem call hmem, hgot⟩

/-- In any run of saves over one store, each call does to the rows what its context permits. So a
tag that is held stays, and the calls account for what has become of its changes. -/
theorem saveAll_permits (b : Rulebook) (hclock : s.supply.ShowsDates) (calls : List SaveCall) :
    (∀ before call after, calls = before ++ call :: after →
      b.Permits call.context (call.desk (b.saveAll s before))
        (b.saveAll s (before ++ [call])).stored) ∧
    ∀ content tag, s.stored.childTag? content = .ok (some tag) →
      ∃ changes time, (b.saveAll s calls).stored.childTag? content =
        .ok (some (tag.withChanges changes time)) ∧ b.Accounts s calls tag changes := by
  constructor
  · rintro before call after -
    have hafter : b.saveAll s (before ++ [call]) = b.afterSave (b.saveAll s before) call := by
      unfold saveAll
      rw [List.foldl_append]
      rfl
    rw [hafter]
    exact permits_afterSave (showsDates_saveAll hclock before) call
  · intro content tag htag
    exact childTag?_saveAll hclock calls htag

end Rulebook

namespace Sample

/-- A user's edit of the page and then an import of it under a lock of the content. -/
def editAndImport : List SaveCall :=
  [⟨.user, edited, .noop⟩, ⟨.importing (importUnder (.only .content)), edited, .noop⟩]

/-- The edit of the body is recorded, the import forgets it, and both calls account for that. -/
theorem permits_editAndImport :
    (∃ changes time, (rulebook.saveAll (store [tag page []]) editAndImport).stored.childTag? page =
        .ok (some ((tag page []).withChanges changes time)) ∧
      rulebook.Accounts (store [tag page []]) editAndImport (tag page []) changes) ∧
    (rulebook.saveAll (store [tag page []]) (editAndImport.take 1)).stored.childTag? page =
      .ok (some (tag page ["body"])) ∧
    (rulebook.saveAll (store [tag page []]) editAndImport).stored.childTag? page =
      .ok (some (tag page [])) :=
  ⟨(Rulebook.saveAll_permits rulebook showsDates_supply editAndImport).2 page (tag page []) rfl,
    rfl, rfl⟩

end Sample

end CourseBlueprint
