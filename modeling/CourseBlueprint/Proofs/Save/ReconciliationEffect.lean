import CourseBlueprint.Proofs.Save.Reconciliation

/-!
# The effect of a reconciliation

`reconcile_effect` says all that reconciling a copy does while the store answers: which recorded
columns leave its tag, which pending changes are taken back and what the attributes then hold, which
tag is reported as skipped, what is answered, and that all else stays. The columns are told by the
locks in force and the schema of the item alone, whatever categories it has.
-/

namespace CourseBlueprint

namespace Item

/-- The entry of an attribute before its pending change; null is no entry. -/
def entryBefore (i : Item) (column : String) : Option Json :=
  match i.pending.get? column with
  | some change => if change.old.isNull then none else some change.old
  | none => i.attributes.get? column

theorem attributes_restoreOne (i : Item) (column k : String) :
    (i.restoreOne column).attributes.get? k =
      if k = column then i.entryBefore k else i.attributes.get? k := by
  by_cases hk : k = column
  · subst hk
    rw [if_pos rfl, restoreOne, entryBefore]
    cases i.pending.get? k with
    | none => rfl
    | some change =>
      simp only
      cases change.old.isNull with
      | true =>
        simp only [if_true]
        rw [Dict.get?_erase, if_pos rfl]
      | false =>
        simp only [Bool.false_eq_true, if_false]
        rw [Dict.get?_put_self]
  · rw [if_neg hk, restoreOne]
    cases i.pending.get? column with
    | none => rfl
    | some change =>
      simp only
      cases change.old.isNull with
      | true =>
        simp only [if_true]
        rw [Dict.get?_erase, if_neg hk]
      | false =>
        simp only [Bool.false_eq_true, if_false]
        rw [Dict.get?_put_of_ne hk]

theorem entryBefore_restoreOne (i : Item) (column k : String) :
    (i.restoreOne column).entryBefore k = i.entryBefore k := by
  unfold entryBefore
  rw [pending_restoreOne, attributes_restoreOne]
  by_cases hk : k = column
  · rw [if_pos hk, if_pos hk]
    rfl
  · rw [if_neg hk, if_neg hk]

/-- Changes that are taken back leave the entries before them, and the others as they are. -/
theorem attributes_restore (columns : List String) (i : Item) (k : String) :
    (i.restore columns).attributes.get? k =
      if k ∈ columns then i.entryBefore k else i.attributes.get? k := by
  unfold restore
  induction columns generalizing i with
  | nil => rfl
  | cons column columns ih =>
    rw [List.foldl_cons, ih, entryBefore_restoreOne, attributes_restoreOne]
    by_cases hk : k = column
    · simp [hk]
    · simp [hk]

end Item

theorem NameSet.isEmpty_ofList (names : List String) : (ofList names).isEmpty = names.isEmpty := by
  rw [Bool.eq_iff_iff, isEmpty_iff, List.isEmpty_iff, List.eq_nil_iff_forall_not_mem]
  exact forall_congr' fun x => not_congr mem_ofList

namespace Reconciliation

/-- Whether an item is brought back from a deletion that its tag records: its pending state starts
from that of deleted content. -/
structure BringsBack (tag : ChildTag) (i : Item) : Prop where
  undeletes : ∃ change, i.pending.get? i.stateColumn = some change ∧
    change.old.isText Item.deletedState = true
  recorded : manuallyDeleted ∈ tag.changes

theorem bringsBack_iff {tag : ChildTag} {i : Item} :
    Plan.bringsBack tag i = true ↔ BringsBack tag i := by
  unfold Plan.bringsBack Plan.isUndelete ChildTag.isManuallyDeleted
  rw [Bool.and_eq_true, decide_eq_true_eq]
  constructor
  · rintro ⟨hundelete, hrecorded⟩
    cases hchange : i.pending.get? i.stateColumn with
    | none => rw [hchange] at hundelete; cases hundelete
    | some change =>
      rw [hchange] at hundelete
      exact ⟨⟨change, hchange, hundelete⟩, hrecorded⟩
  · rintro ⟨⟨change, hchange, hundelete⟩, hrecorded⟩
    rw [hchange]
    exact ⟨hundelete, hrecorded⟩

/-- The recorded columns that the locks take from a tag: those in a locked category, and the deletion
if the item is brought back while anything is restricted. -/
def Clears (r : Restrictions) (s : Schema) (tag : ChildTag) (i : Item) (column : String) : Prop :=
  column ∈ tag.changes ∧ ((∃ g, column ∈ s.columns g ∧ r.isLocked g = true) ∨
    column = manuallyDeleted ∧ BringsBack tag i ∧ r.restrict s .any = true)

/-- The columns whose pending changes are taken back: those in a category that is not locked and has a
recorded column, and the state if the item is brought back while nothing is restricted. -/
def Reverts (r : Restrictions) (s : Schema) (tag : ChildTag) (i : Item) (column : String) : Prop :=
  (column ∈ i.pending.keys ∧
    ∃ g, column ∈ s.columns g ∧ r.isLocked g = false ∧ tag.Records s g) ∨
  column = i.stateColumn ∧ BringsBack tag i ∧ r.restrict s .any = false

variable {r : Restrictions} {s : Schema} {tag : ChildTag} {i : Item} {column : String}

theorem mem_forget_iff_clears :
    column ∈ (Plan.full r tag i s).forget ↔ Clears r s tag i column := by
  rw [Plan.mem_forget_full, bringsBack_iff]
  constructor
  · rintro (⟨hchanges, hlocked⟩ | ⟨rfl, hback, hany⟩)
    · exact ⟨hchanges, .inl hlocked⟩
    · exact ⟨hback.recorded, .inr ⟨rfl, hback, hany⟩⟩
  · rintro ⟨hchanges, hlocked | hback⟩
    · exact .inl ⟨hchanges, hlocked⟩
    · exact .inr hback

theorem mem_takeBack_iff_reverts :
    column ∈ (Plan.full r tag i s).takeBack ↔ Reverts r s tag i column := by
  rw [Plan.mem_takeBack_full, bringsBack_iff]
  rfl

/-- Only pending changes are taken back. -/
theorem Reverts.pending (h : Reverts r s tag i column) :
    ∃ change, i.pending.get? column = some change := by
  rcases h with ⟨hpending, -⟩ | ⟨rfl, ⟨⟨change, hchange, -⟩, -⟩, -⟩
  · exact Option.isSome_iff_exists.1 (Dict.mem_keys_iff.1 hpending)
  · exact ⟨change, hchange⟩

/-- What a reconciliation answers that has cleared and reverted the given columns. -/
def telling (cleared reverted : NameSet) : Reconciliation :=
  if cleared.isEmpty then if reverted.isEmpty then .noOverlap else .fullyPreserved
  else .partiallyOverwritten cleared reverted

/-- All that a reconciliation leaves behind on a desk, with the columns it cleared from the tag and
those whose pending changes it reverted. -/
structure Effect (r : Restrictions) (s : Schema) (tag : ChildTag) (cleared reverted : NameSet)
    (d : Desk) (answer : Reconciliation) (d' : Desk) : Prop where
  clears : ∀ column, column ∈ cleared ↔ Clears r s tag d.item column
  reverts : ∀ column, column ∈ reverted ↔ Reverts r s tag d.item column
  /-- The tag keeps what it records, less what is cleared. -/
  ownTag : ∃ time, d'.store.stored.childTag? d.item.key =
    .ok (some (tag.withChanges (tag.changes \ cleared) time))
  otherTags : ∀ content, content ≠ d.item.key →
    d'.store.stored.childTag? content = d.store.stored.childTag? content
  otherTables : ∃ rows, d'.store.stored = { d.store.stored with childTags := rows }
  pending : ∀ column, d'.item.pending.get? column =
    if column ∈ reverted then none else d.item.pending.get? column
  attributes : ∀ column, d'.item.attributes.get? column =
    if column ∈ reverted then d.item.entryBefore column else d.item.attributes.get? column
  /-- Nothing else of the item changes, but that the locks are kept with it if they were looked up. -/
  item : ∃ attributes pending, d'.item =
    { d.item with
      attributes := attributes
      pending := pending
      childRestrictions := if tag.changes.isEmpty then d.item.childRestrictions else some r }
  skipped : d'.skipped = if reverted.isEmpty then d.skipped
    else d.skipped ++ [{ tag with changes := tag.changes \ cleared }]
  handed : d'.handed = d.handed
  answer : answer = telling cleared reverted

end Reconciliation

/-- Some call of the store that reconciling a copy makes fails: finding or creating its tag, or
removing from the tag what is to be cleared. -/
inductive Desk.CallFails (b : Rulebook) (m : Migration) (d : Desk) : Prop
  | finding {e : Failure} {s : Store}
      (h : (Store.findOrCreateChildTag m.subscription.id d.item.key d.item.migrationId).run d.store =
        (.error e, s))
  | clearing {tag : ChildTag} {cleared : NameSet} {e : Failure} {s s' : Store}
      (hfound : (Store.findOrCreateChildTag m.subscription.id d.item.key d.item.migrationId).run
        d.store = (.ok tag, s))
      (hcleared : ∀ column, column ∈ cleared ↔
        Reconciliation.Clears (d.item.locksIn m) (b.schemaOf d.item) tag d.item column)
      (hsome : cleared.isEmpty = false)
      (h : (Store.removeChanges d.item.key cleared).run s = (.error e, s'))

/-- The tag that an import reconciles an item with: its own, or a new one that records nothing. -/
def Desk.TagFor (d : Desk) (m : Migration) (tag : ChildTag) : Prop :=
  d.store.stored.childTag? d.item.key = .ok (some tag) ∨
    d.store.stored.childTag? d.item.key = .ok none ∧ tag.subscriptionId = m.subscription.id ∧
      tag.content = d.item.key ∧ tag.migrationId = d.item.migrationId ∧ tag.changes = ∅

namespace Rulebook

open Reconciliation (Plan Effect telling Clears)

variable {b : Rulebook} {c : Context} {m : Migration} {d : Desk}

theorem telling_plan (p : Plan) : telling p.forget (.ofList p.takeBack) = p.outcome := by
  rw [telling, Plan.outcome, NameSet.isEmpty_ofList]
  cases p.forget.isEmpty with
  | true =>
    cases p.takeBack.isEmpty with
    | true => rfl
    | false => rfl
  | false => rfl

/-- The tag that is found or created is the one to reconcile with; the other rows stay. -/
theorem tagFor_of_found {tag : ChildTag} {s : Store}
    (h : Store.FoundOrCreated d.store m.subscription.id d.item.key d.item.migrationId (.ok tag) s) :
    d.TagFor m tag ∧ ∃ rows, s.stored = { d.store.stored with childTags := rows } := by
  rcases h.ends with ⟨e, he, -⟩ | ⟨tag', htag, -, hheld, hstored | ⟨rows, hrows, hnone, hsub, hkey,
    hid, hchanges, hstored⟩⟩
  · cases he
  · cases htag
    exact ⟨.inl (hstored ▸ hheld), _, hstored⟩
  · cases htag
    exact ⟨.inr ⟨by rw [Store.childTag?_of_rows hrows, hnone], hsub, hkey, hid, hchanges⟩, _, hstored⟩

/-- Taking back what a plan says has the effect on the item, if the store already has its own. -/
theorem effect_takenBack {tag : ChildTag} {s : Store} {kept : Option Restrictions}
    (hkept : kept = if tag.changes.isEmpty then d.item.childRestrictions
      else some (d.item.locksIn m))
    (hown : ∃ time, s.stored.childTag? d.item.key = .ok (some (tag.withChanges
      (tag.changes \ (b.planIn m tag d.item).forget) time)))
    (hothers : ∀ content, content ≠ d.item.key →
      s.stored.childTag? content = d.store.stored.childTag? content)
    (htables : ∃ rows, s.stored = { d.store.stored with childTags := rows }) :
    Effect (d.item.locksIn m) (b.schemaOf d.item) tag (b.planIn m tag d.item).forget
      (.ofList (b.planIn m tag d.item).takeBack) d (b.planIn m tag d.item).outcome
      (Desk.takenBack { d with store := s, item := { d.item with childRestrictions := kept } } tag
        (b.planIn m tag d.item)) := by
  generalize hp : b.planIn m tag d.item = p at hown ⊢
  obtain ⟨hstore, hhanded, attributes, pending, hitem⟩ := Reconciled.takenBack_frame
    ({ d with store := s, item := { d.item with childRestrictions := kept } } : Desk) tag p
  refine ⟨?_, ?_, ?_, ?_, ?_, ?_, ?_, ?_, ?_, hhanded, (telling_plan p).symm⟩
  · intro column
    rw [← hp]
    exact Reconciliation.mem_forget_iff_clears
  · intro column
    rw [NameSet.mem_ofList, ← hp]
    exact Reconciliation.mem_takeBack_iff_reverts
  · rw [hstore]
    exact hown
  · rw [hstore]
    exact hothers
  · rw [hstore]
    exact htables
  · intro column
    rw [Reconciled.takenBack_item, Item.pending_restore]
    simp only [NameSet.mem_ofList]
  · intro column
    rw [Reconciled.takenBack_item, Item.attributes_restore]
    simp only [NameSet.mem_ofList]
    rfl
  · rw [← hkept]
    exact ⟨attributes, pending, hitem⟩
  · rw [Reconciled.takenBack_skipped, NameSet.isEmpty_ofList]

/-- Nothing is planned for a tag that records nothing, so finding or creating it is all there is. -/
theorem effect_of_clean {tag : ChildTag} {s : Store}
    (hfound : Store.FoundOrCreated d.store m.subscription.id d.item.key d.item.migrationId (.ok tag)
      s)
    (hclean : tag.changes.isEmpty = true) :
    Effect (d.item.locksIn m) (b.schemaOf d.item) tag (b.planIn m tag d.item).forget
      (.ofList (b.planIn m tag d.item).takeBack) d .noOverlap { d with store := s } := by
  obtain ⟨hforget, htakeBack⟩ := Reconciled.planIn_of_clean (b := b) (m := m) hclean d.item
  have hforget := NameSet.isEmpty_iff.2 hforget
  have hanswer : (b.planIn m tag d.item).outcome = .noOverlap := by
    rw [Plan.outcome, hforget, htakeBack]
    rfl
  have hdesk : Desk.takenBack { d with store := s } tag (b.planIn m tag d.item) =
      { d with store := s } := by
    rw [Desk.takenBack, htakeBack]
    rfl
  have hown : ∃ time, s.stored.childTag? d.item.key = .ok (some (tag.withChanges
      (tag.changes \ (b.planIn m tag d.item).forget) time)) :=
    ⟨tag.updatedAt, by rw [diff_of_isEmpty hforget]; exact hfound.held.2⟩
  have hkept : d.item.childRestrictions = if tag.changes.isEmpty then d.item.childRestrictions
      else some (d.item.locksIn m) := by rw [hclean]; rfl
  have heffect := effect_takenBack hkept hown (fun _ hne => hfound.childTag?_of_ne hne)
    (tagFor_of_found hfound).2
  rwa [hanswer, show Desk.takenBack _ tag _ = _ from hdesk] at heffect

/-- The plan for a tag that records something is carried out once the store has forgotten. -/
theorem effect_of_forgotten (hclock : d.store.supply.ShowsDates) {tag : ChildTag} {s s' : Store}
    (hfound : Store.FoundOrCreated d.store m.subscription.id d.item.key d.item.migrationId (.ok tag)
      s)
    (hchanges : tag.changes.isEmpty = false)
    (hforget : (forget tag (b.planIn m tag d.item)).run s = (.ok (), s')) :
    Effect (d.item.locksIn m) (b.schemaOf d.item) tag (b.planIn m tag d.item).forget
      (.ofList (b.planIn m tag d.item).takeBack) d (b.planIn m tag d.item).outcome
      ((Desk.withLocks { d with store := s' } (d.item.locksIn m)).takenBack tag
        (b.planIn m tag d.item)) := by
  obtain ⟨hopen, hheld⟩ := hfound.held
  have hkey : tag.content = d.item.key := Store.content_of_childTag? hheld
  obtain ⟨-, rows, htables⟩ := tagFor_of_found hfound
  rw [← hkey] at hheld
  obtain ⟨-, ⟨e, he, -⟩ | ⟨-, -, hstored⟩⟩ :=
    forget_spec (hfound.supply.showsDates hclock) hopen hheld hforget
  · cases he
  refine effect_takenBack (by rw [hchanges]; rfl) ?_ ?_ ?_
  · rw [← hkey]
    rcases hstored with ⟨hsame, hstored⟩ | ⟨rows', time, -, hfind, hstored⟩
    · exact ⟨tag.updatedAt, by rw [hsame, hstored]; exact hheld⟩
    · refine ⟨time, ?_⟩
      rw [hstored, Store.childTag?_withChildTags, Store.childTagIn_withChanges hfind, if_pos rfl]
  · intro content hne
    rw [← hfound.childTag?_of_ne hne]
    rcases hstored with ⟨-, hstored⟩ | hstored
    · rw [hstored]
    · exact (Store.childTag?_of_setsChanges hstored).2 content (by rw [hkey]; exact hne)
  · rcases hstored with ⟨-, hstored⟩ | ⟨rows', time, -, -, hstored⟩
    · exact ⟨rows, hstored.trans htables⟩
    · rw [hstored, htables]
      exact ⟨_, rfl⟩

/-- A plan whose columns are not forgotten meets a failing call. -/
theorem callFails_of_forget {tag : ChildTag} {s s' : Store} {e : Failure}
    (hrun : (Store.findOrCreateChildTag m.subscription.id d.item.key d.item.migrationId).run d.store =
      (.ok tag, s))
    (hkey : tag.content = d.item.key)
    (hforget : (forget tag (b.planIn m tag d.item)).run s = (.error e, s')) : d.CallFails b m := by
  cases hempty : (b.planIn m tag d.item).forget.isEmpty with
  | true =>
    rw [run_forget_of_isEmpty hempty] at hforget
    cases (Prod.mk.inj hforget).1
  | false =>
    rw [forget, hempty, Bool.not_false, if_pos rfl] at hforget
    rcases Action.run_bind_ends hforget with ⟨e', hremove, -⟩ | ⟨removed, s'', -, hpure⟩
    · rw [hkey] at hremove
      exact .clearing hrun (fun _ => Reconciliation.mem_forget_iff_clears) hempty hremove
    · cases (Prod.mk.inj hpure).1

/-- Reconciling a copy in an import has exactly its effect, whatever the categories, the pending
changes and the recorded ones, as long as the store answers. -/
theorem reconcile_effect (hclock : d.store.supply.ShowsDates) (hc : c.migration = some m)
    (hcopy : b.isCopy d.item = true) (hcalls : ¬ d.CallFails b m) :
    ∃ answer d' tag cleared reverted, (b.reconcile c).run d = (.ok answer, d') ∧ d.TagFor m tag ∧
      Effect (d.item.locksIn m) (b.schemaOf d.item) tag cleared reverted d answer d' := by
  rcases hrun : (Store.findOrCreateChildTag m.subscription.id d.item.key d.item.migrationId).run
    d.store with ⟨e | tag, s⟩
  · exact absurd (.finding hrun) hcalls
  have hfound := Store.findOrCreateChildTag_spec hclock hrun
  have hkey : tag.content = d.item.key := Store.content_of_childTag? hfound.held.2
  have htag := (tagFor_of_found hfound).1
  have hreconcile := run_reconcile hc hcopy
  simp only [hrun] at hreconcile
  cases hchanges : tag.changes.isEmpty with
  | true =>
    rw [hchanges, if_pos rfl] at hreconcile
    exact ⟨_, _, tag, _, _, hreconcile, htag, effect_of_clean hfound hchanges⟩
  | false =>
    rw [hchanges, if_neg Bool.false_ne_true] at hreconcile
    rcases hforget : (forget tag (b.planIn m tag d.item)).run s with ⟨e | _, s'⟩
    · exact absurd (callFails_of_forget hrun hkey hforget) hcalls
    · rw [hforget] at hreconcile
      exact ⟨_, _, tag, _, _, hreconcile, htag, effect_of_forgotten hclock hfound hchanges hforget⟩

end Rulebook

namespace Sample

/-- A copy whose content and settings were changed in the child course, when the settings are
locked: the import takes the settings from the tag, and loses the content. -/
theorem reconcile_effect_edited :
    ¬ (desk ["body", "editing_roles"]).CallFails rulebook (importUnder (.only .settings)) ∧
    ∃ answer d' tag cleared reverted,
      (rulebook.reconcile (.importing (importUnder (.only .settings)))).run
        (desk ["body", "editing_roles"]) = (.ok answer, d') ∧
      (desk ["body", "editing_roles"]).TagFor (importUnder (.only .settings)) tag ∧
      Reconciliation.Effect (Restrictions.none.set (.only .settings) true)
        (rulebook.schemaOf edited) tag cleared reverted (desk ["body", "editing_roles"]) answer d' := by
  have hcalls :
      ¬ (desk ["body", "editing_roles"]).CallFails rulebook (importUnder (.only .settings)) := by
    rintro (h | ⟨hfound, hcleared, -, h⟩)
    · cases h
    · obtain ⟨htag, rfl⟩ := Prod.mk.inj hfound
      obtain rfl := Except.ok.inj htag
      obtain rfl := NameSet.eq_of_mem_iff fun column =>
        (hcleared column).trans Reconciliation.mem_forget_iff_clears.symm
      cases h
  exact ⟨hcalls, Rulebook.reconcile_effect showsDates_supply rfl rfl hcalls⟩

end Sample

end CourseBlueprint
