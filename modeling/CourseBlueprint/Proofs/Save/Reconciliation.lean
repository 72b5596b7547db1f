import CourseBlueprint.Proofs.Item
import CourseBlueprint.Proofs.Save.Locks
import CourseBlueprint.Save.Reconciliation

/-!
# What reconciliation does

The plan of a reconciliation is a function of the locks in force, the tag and the item: it forgets
the recorded columns of locked categories (`Plan.mem_forget_full`) and takes back the pending columns
of the other categories with recorded changes (`Plan.mem_takeBack_full`). `Reconciled` lists all ends
of a reconciliation. In none of them has a row of another content changed.
-/

namespace CourseBlueprint

/-- Whether a tag records a change of a column that the category governs. -/
def ChildTag.Records (tag : ChildTag) (s : Schema) (g : Category) : Prop :=
  ∃ column ∈ s.columns g, column ∈ tag.changes

namespace Reconciliation.Plan

/-! ## Plans -/

variable {r : Restrictions} {tag : ChildTag} {i : Item} {s : Schema} {column : String}

theorem mem_changesWithin {columns : List String} :
    column ∈ tag.changesWithin columns ↔ column ∈ columns ∧ column ∈ tag.changes := by
  unfold ChildTag.changesWithin
  rw [List.mem_filter, decide_eq_true_eq]

theorem changesWithin_isEmpty_eq_false {columns : List String} :
    (tag.changesWithin columns).isEmpty = false ↔ ∃ x ∈ columns, x ∈ tag.changes := by
  rw [List.isEmpty_eq_false_iff_exists_mem]
  simp only [mem_changesWithin]

/-- One more category adds to the columns to forget if it is locked. -/
theorem mem_forget_consider {p : Plan} {g : Category} {columns : List String} :
    column ∈ (consider r tag i p g columns).forget ↔ column ∈ p.forget ∨
      r.isLocked g = true ∧ column ∈ columns ∧ column ∈ tag.changes := by
  unfold consider
  simp only
  split
  · next hempty =>
    have hnone : ¬ (column ∈ columns ∧ column ∈ tag.changes) := by
      rw [← mem_changesWithin, List.isEmpty_iff.1 hempty]
      exact List.not_mem_nil
    constructor
    · exact .inl
    · rintro (h | ⟨-, h⟩)
      · exact h
      · exact absurd h hnone
  · split
    · next hlocked => simp only [NameSet.mem_foldl_insert, mem_changesWithin, hlocked, true_and]
    · next hlocked => simp [hlocked]

/-- One more category adds to the columns to take back if it is not locked and has recorded
changes. -/
theorem mem_takeBack_consider {p : Plan} {g : Category} {columns : List String} :
    column ∈ (consider r tag i p g columns).takeBack ↔ column ∈ p.takeBack ∨
      r.isLocked g = false ∧ (∃ x ∈ columns, x ∈ tag.changes) ∧ column ∈ columns ∧
        column ∈ i.pending.keys := by
  unfold consider
  simp only
  split
  · next hempty =>
    have hnone : ¬ ∃ x ∈ columns, x ∈ tag.changes := by
      rw [← changesWithin_isEmpty_eq_false, hempty]
      exact Bool.noConfusion
    constructor
    · exact .inl
    · rintro (h | ⟨-, h, -⟩)
      · exact h
      · exact absurd h hnone
  · next hsome =>
    have hsome : ∃ x ∈ columns, x ∈ tag.changes :=
      changesWithin_isEmpty_eq_false.1 (Bool.eq_false_iff.2 hsome)
    split
    · next hlocked => simp [hlocked]
    · next hlocked =>
      rw [Schema.mem_addColumns, Rulebook.mem_pendingWithin]
      constructor
      · rintro (h | ⟨hpending, hcolumn⟩)
        · exact .inl h
        · exact .inr ⟨Bool.eq_false_iff.2 hlocked, hsome, hcolumn, hpending⟩
      · rintro (h | ⟨-, -, hcolumn, hpending⟩)
        · exact .inl h
        · exact .inr ⟨hpending, hcolumn⟩

theorem mem_forget_foldl {p : Plan} {entries : List (Category × List String)} :
    column ∈ (entries.foldl (fun p e => consider r tag i p e.1 e.2) p).forget ↔ column ∈ p.forget ∨
      ∃ e ∈ entries, r.isLocked e.1 = true ∧ column ∈ e.2 ∧ column ∈ tag.changes := by
  induction entries generalizing p with
  | nil => simp
  | cons e entries ih =>
    rw [List.foldl_cons, ih, mem_forget_consider, or_assoc]
    simp only [List.mem_cons, exists_eq_or_imp]

theorem mem_takeBack_foldl {p : Plan} {entries : List (Category × List String)} :
    column ∈ (entries.foldl (fun p e => consider r tag i p e.1 e.2) p).takeBack ↔
      column ∈ p.takeBack ∨ ∃ e ∈ entries, r.isLocked e.1 = false ∧
        (∃ x ∈ e.2, x ∈ tag.changes) ∧ column ∈ e.2 ∧ column ∈ i.pending.keys := by
  induction entries generalizing p with
  | nil => simp
  | cons e entries ih =>
    rw [List.foldl_cons, ih, mem_takeBack_consider, or_assoc]
    simp only [List.mem_cons, exists_eq_or_imp]

/-- The recorded columns of locked categories are to be forgotten. -/
theorem mem_forget_ofSchema :
    column ∈ (ofSchema r tag i s).forget ↔
      column ∈ tag.changes ∧ ∃ g, column ∈ s.columns g ∧ r.isLocked g = true := by
  rw [ofSchema, mem_forget_foldl]
  constructor
  · rintro (h | ⟨⟨g, columns⟩, hmem, hlocked, hcolumn, hchanges⟩)
    · exact absurd h (NameSet.not_mem_empty column)
    · exact ⟨hchanges, g, Schema.mem_columns.2 ⟨columns, hmem, hcolumn⟩, hlocked⟩
  · rintro ⟨hchanges, g, hcolumn, hlocked⟩
    obtain ⟨columns, hmem, hcolumn⟩ := Schema.mem_columns.1 hcolumn
    exact .inr ⟨(g, columns), hmem, hlocked, hcolumn, hchanges⟩

/-- The pending columns of other categories with recorded changes are to be taken back. -/
theorem mem_takeBack_ofSchema :
    column ∈ (ofSchema r tag i s).takeBack ↔
      column ∈ i.pending.keys ∧
        ∃ g, column ∈ s.columns g ∧ r.isLocked g = false ∧ tag.Records s g := by
  rw [ofSchema, mem_takeBack_foldl]
  constructor
  · rintro (h | ⟨⟨g, columns⟩, hmem, hlocked, ⟨x, hx, hchanges⟩, hcolumn, hpending⟩)
    · exact absurd h List.not_mem_nil
    · exact ⟨hpending, g, Schema.mem_columns.2 ⟨columns, hmem, hcolumn⟩, hlocked, x,
        Schema.mem_columns.2 ⟨columns, hmem, hx⟩, hchanges⟩
  · rintro ⟨hpending, g, hcolumn, hlocked, x, hx, hchanges⟩
    obtain ⟨columns, hmem, hcolumn⟩ := Schema.mem_columns.1 hcolumn
    obtain ⟨columns', hmem', hx⟩ := Schema.mem_columns.1 hx
    rw [Schema.mem_entries] at hmem hmem'
    rw [hmem] at hmem'
    obtain rfl := Option.some.inj hmem'
    exact .inr ⟨(g, columns), Schema.mem_entries.2 hmem, hlocked, ⟨x, hx, hchanges⟩, hcolumn,
      hpending⟩

/-- Whether an item is about to be brought back from a deletion that its tag records. -/
def bringsBack (tag : ChildTag) (i : Item) : Bool := isUndelete i && tag.isManuallyDeleted

/-- To bring a copy back is to write its state. -/
theorem mem_pending_of_bringsBack {tag : ChildTag} {i : Item} (h : bringsBack tag i = true) :
    i.stateColumn ∈ i.pending.keys := by
  rw [bringsBack, Bool.and_eq_true, isUndelete] at h
  cases hchange : i.pending.get? i.stateColumn with
  | some change => exact Dict.mem_keys_iff.2 (by rw [hchange]; rfl)
  | none =>
    rw [hchange] at h
    cases h.1

/-- The plan for an item and its tag under the locks in force. -/
def full (r : Restrictions) (tag : ChildTag) (i : Item) (s : Schema) : Plan :=
  if bringsBack tag i then (ofSchema r tag i s).undelete (r.restrict s .any) i.stateColumn
  else ofSchema r tag i s

/-- What is forgotten: the recorded columns of locked categories, and the deletion if anything is
restricted. -/
theorem mem_forget_full :
    column ∈ (full r tag i s).forget ↔
      (column ∈ tag.changes ∧ ∃ g, column ∈ s.columns g ∧ r.isLocked g = true) ∨
        column = manuallyDeleted ∧ bringsBack tag i = true ∧ r.restrict s .any = true := by
  unfold full
  cases hback : bringsBack tag i with
  | false => simp [mem_forget_ofSchema]
  | true =>
    cases hany : r.restrict s .any with
    | false => simp [undelete, mem_forget_ofSchema]
    | true =>
      simp only [if_true, undelete, NameSet.mem_insert, mem_forget_ofSchema, and_true]
      exact Or.comm

/-- What is taken back: the pending columns of other categories with recorded changes, and the state
if nothing is restricted. -/
theorem mem_takeBack_full :
    column ∈ (full r tag i s).takeBack ↔
      (column ∈ i.pending.keys ∧
        ∃ g, column ∈ s.columns g ∧ r.isLocked g = false ∧ tag.Records s g) ∨
        column = i.stateColumn ∧ bringsBack tag i = true ∧ r.restrict s .any = false := by
  unfold full
  cases hback : bringsBack tag i with
  | false => simp [mem_takeBack_ofSchema]
  | true =>
    cases hany : r.restrict s .any with
    | false => simp [undelete, Schema.mem_addColumns, mem_takeBack_ofSchema]
    | true => simp [undelete, mem_takeBack_ofSchema]

/-- Only recorded changes are forgotten. -/
theorem mem_changes_of_mem_forget (h : column ∈ (full r tag i s).forget) : column ∈ tag.changes := by
  rcases mem_forget_full.1 h with ⟨hchanges, -⟩ | ⟨rfl, hback, -⟩
  · exact hchanges
  · unfold bringsBack ChildTag.isManuallyDeleted at hback
    rw [Bool.and_eq_true] at hback
    exact of_decide_eq_true hback.2

end Reconciliation.Plan

/-- The desk after a plan is carried out on its item. -/
def Desk.takenBack (d : Desk) (tag : ChildTag) (p : Reconciliation.Plan) : Desk :=
  if p.takeBack.isEmpty then d
  else { d with
    item := d.item.restore p.takeBack
    skipped := d.skipped ++ [{ tag with changes := tag.changes \ p.forget }] }

namespace Rulebook

open Reconciliation (Plan)

variable {b : Rulebook} {c : Context} {m : Migration} {d : Desk}

/-! ## Runs -/

/-- The plan that an import makes for a tag. -/
def planIn (b : Rulebook) (m : Migration) (tag : ChildTag) (i : Item) : Plan :=
  Plan.full (i.locksIn m) tag i (b.schemaOf i)

theorem run_planFor (hc : c.migration = some m) (hcopy : b.isCopy d.item = true) (tag : ChildTag) :
    (b.planFor c tag).run d =
      (.ok (b.planIn m tag d.item), d.withLocks (d.item.locksIn m)) := by
  rw [planFor, Action.run_bind_ok (run_restrictionsInForce_import hc),
    Action.run_bind_ok (Work.run_item _), planIn, Plan.full, Plan.bringsBack]
  show ((if (Plan.isUndelete d.item && tag.isManuallyDeleted) = true then _ else _ :
    Work Plan)).run _ = _
  cases Plan.isUndelete d.item && tag.isManuallyDeleted with
  | false => rfl
  | true =>
    have hkept : (d.withLocks (d.item.locksIn m)).item.childRestrictions =
        some (d.item.locksIn m) := rfl
    have hrestricted := run_isRestricted (b := b) (c := c) (d := d.withLocks (d.item.locksIn m))
      hcopy (run_restrictionsInForce_of_kept hkept) .any
    simp only [if_true]
    rw [Action.run_bind_ok hrestricted]
    rfl

/-- The ends of a reconciliation in an import: the tag could not be found or made; it records no
changes; what is to be forgotten could not be removed; or the plan was carried out. -/
inductive Reconciled (b : Rulebook) (m : Migration) (d : Desk) : Result Reconciliation → Desk → Prop
  | unfound {e : Failure} {s : Store}
      (hfound : Store.FoundOrCreated d.store m.subscription.id d.item.key d.item.migrationId
        (.error e) s) :
      Reconciled b m d (.error e) { d with store := s }
  | clean {tag : ChildTag} {s : Store}
      (hfound : Store.FoundOrCreated d.store m.subscription.id d.item.key d.item.migrationId
        (.ok tag) s)
      (hclean : tag.changes.isEmpty = true) :
      Reconciled b m d (.ok .noOverlap) { d with store := s }
  | refused {tag : ChildTag} {s s' : Store} {e : Failure}
      (hfound : Store.FoundOrCreated d.store m.subscription.id d.item.key d.item.migrationId
        (.ok tag) s)
      (hlater : s.supply.Later s'.supply) (hstored : s'.stored = s.stored) :
      Reconciled b m d (.error e) ({ d with store := s' }.withLocks (d.item.locksIn m))
  | carriedOut {tag : ChildTag} {s s' : Store}
      (hfound : Store.FoundOrCreated d.store m.subscription.id d.item.key d.item.migrationId
        (.ok tag) s)
      (hchanges : tag.changes.isEmpty = false) (hlater : s.supply.Later s'.supply)
      (hopen : s'.isOpen = true)
      (hstored : (tag.changes \ (b.planIn m tag d.item).forget = tag.changes ∧
          s'.stored = s.stored) ∨
        s.stored.SetsChanges tag (tag.changes \ (b.planIn m tag d.item).forget) s'.stored) :
      Reconciled b m d (.ok (b.planIn m tag d.item).outcome)
        (({ d with store := s' }.withLocks (d.item.locksIn m)).takenBack tag
          (b.planIn m tag d.item))

theorem run_takeBack (tag : ChildTag) (p : Plan) :
    ((if !p.takeBack.isEmpty then do
        Work.modifyItem fun i => i.restore p.takeBack
        .modify fun d =>
          { d with skipped := d.skipped ++ [{ tag with changes := tag.changes \ p.forget }] }
      else pure () : Work Unit)).run d = (.ok (), d.takenBack tag p) := by
  unfold Desk.takenBack
  cases p.takeBack.isEmpty with
  | true => rfl
  | false => rfl

/-- Removing from a tag what a plan forgets. -/
def forget (tag : ChildTag) (p : Plan) : Action Store Unit := do
  if !p.forget.isEmpty then
    let _ ← Store.removeChanges tag.content p.forget

/-- Carrying out a plan asks the store for nothing but what is to be forgotten. -/
theorem run_carryOut (tag : ChildTag) (p : Plan) :
    (carryOut tag p).run d = match (forget tag p).run d.store with
      | (.ok _, s) => (.ok (), ({ d with store := s } : Desk).takenBack tag p)
      | (.error e, s) => (.error e, { d with store := s }) := by
  rw [carryOut, forget]
  cases p.forget.isEmpty with
  | true =>
    simp only [Bool.not_true, Bool.false_eq_true, if_false]
    rw [run_takeBack]
    rfl
  | false =>
    simp only [Bool.not_false, if_true]
    rcases hrun : (Store.removeChanges tag.content p.forget).run d.store with ⟨e | removed, s⟩
    · rw [Action.run_bind_error (Work.run_store_of hrun), Action.run_bind_error hrun]
    · rw [Action.run_bind_ok (Work.run_store_of hrun), run_takeBack, Action.run_bind_ok hrun]
      rfl

/-- Nothing to forget leaves the recorded changes. -/
theorem diff_of_isEmpty {s t : NameSet} (h : t.isEmpty = true) : s \ t = s := by
  refine NameSet.eq_of_mem_iff fun x => ?_
  rw [NameSet.mem_diff]
  exact ⟨fun hx => hx.1, fun hx => ⟨hx, NameSet.isEmpty_iff.1 h x⟩⟩

/-- A plan that has nothing to forget leaves the store alone. -/
theorem run_forget_of_isEmpty {p : Plan} (h : p.forget.isEmpty = true) (tag : ChildTag) (s : Store) :
    (forget tag p).run s = (.ok (), s) := by
  rw [forget, h]
  rfl

/-- What a plan forgets is removed from a tag that is held, or it could not be removed and no row has
changed. -/
theorem forget_spec {tag : ChildTag} {p : Plan} {s s' : Store} {r : Result Unit}
    (hclock : s.supply.ShowsDates) (hopen : s.isOpen = true)
    (htag : s.stored.childTag? tag.content = .ok (some tag)) (h : (forget tag p).run s = (r, s')) :
    s.supply.Later s'.supply ∧
      ((∃ e, r = .error e ∧ s'.stored = s.stored) ∨
        r = .ok () ∧ s'.isOpen = true ∧
          (tag.changes \ p.forget = tag.changes ∧ s'.stored = s.stored ∨
            s.stored.SetsChanges tag (tag.changes \ p.forget) s'.stored)) := by
  cases hforget : p.forget.isEmpty with
  | true =>
    rw [run_forget_of_isEmpty hforget] at h
    obtain ⟨rfl, rfl⟩ := Prod.mk.inj h
    exact ⟨.refl _, .inr ⟨rfl, hopen, .inl ⟨diff_of_isEmpty hforget, rfl⟩⟩⟩
  | false =>
    simp only [forget, hforget, Bool.not_false, if_true] at h
    rcases hrun : (Store.removeChanges tag.content p.forget).run s with ⟨rb, s₁⟩
    obtain ⟨hlater, hopen', ⟨e, rfl, hstored⟩ | ⟨⟨removed, rfl⟩, hopens, hstored⟩⟩ :=
      Store.removeChanges_spec hclock htag hrun
    · rw [Action.run_bind_error hrun] at h
      obtain ⟨rfl, rfl⟩ := Prod.mk.inj h
      exact ⟨hlater, .inl ⟨e, rfl, hstored⟩⟩
    · rw [Action.run_bind_ok hrun] at h
      obtain ⟨rfl, rfl⟩ := Prod.mk.inj h
      exact ⟨hlater, .inr ⟨rfl, hopens, hstored⟩⟩

section Importing

variable (hc : c.migration = some m) (hcopy : b.isCopy d.item = true)
include hc hcopy

/-- The reconciliation of a copy that is imported asks the store for its tag, and to remove from it what
is to be forgotten. -/
theorem run_reconcile :
    (b.reconcile c).run d =
      match (Store.findOrCreateChildTag m.subscription.id d.item.key d.item.migrationId).run
        d.store with
      | (.error e, s) => (.error e, { d with store := s })
      | (.ok tag, s) =>
        if tag.changes.isEmpty then (.ok .noOverlap, { d with store := s })
        else
          let p := b.planIn m tag d.item
          match (forget tag p).run s with
          | (.error e, s') => (.error e, ({ d with store := s' } : Desk).withLocks (d.item.locksIn m))
          | (.ok _, s') =>
            (.ok p.outcome,
              (({ d with store := s' } : Desk).withLocks (d.item.locksIn m)).takenBack tag p) := by
  rw [reconcile, Action.run_bind_ok (Work.run_item d)]
  simp only [hc, hcopy, Bool.not_true, Bool.false_eq_true, if_false]
  rw [Action.run_bind]
  rcases hfound : (Store.findOrCreateChildTag m.subscription.id d.item.key d.item.migrationId).run
    d.store with ⟨e | tag, s⟩
  · rw [Work.run_store_of hfound]
  · rw [Work.run_store_of hfound]
    simp only
    cases tag.changes.isEmpty with
    | true => rfl
    | false =>
      have hplan := run_planFor (d := { d with store := s }) hc hcopy tag
      have hcarry := run_carryOut
        (d := ({ d with store := s } : Desk).withLocks (d.item.locksIn m)) tag (b.planIn m tag d.item)
      rw [show (Desk.withLocks _ _).store = s from rfl] at hcarry
      simp only [Bool.false_eq_true, if_false]
      rw [Action.run_bind_ok hplan, Action.run_bind, hcarry]
      rcases (forget tag (b.planIn m tag d.item)).run s with ⟨e | _, s'⟩
      · rfl
      · rfl

theorem reconciled (hclock : d.store.supply.ShowsDates) {r : Result Reconciliation} {d' : Desk}
    (h : (b.reconcile c).run d = (r, d')) : Reconciled b m d r d' := by
  rw [run_reconcile hc hcopy] at h
  rcases hrun : (Store.findOrCreateChildTag m.subscription.id d.item.key d.item.migrationId).run
    d.store with ⟨e | tag, s⟩
  · rw [hrun] at h
    obtain ⟨rfl, rfl⟩ := Prod.mk.inj h
    exact .unfound (Store.findOrCreateChildTag_spec hclock hrun)
  · have hfound := Store.findOrCreateChildTag_spec hclock hrun
    rw [hrun] at h
    simp only at h
    cases hchanges : tag.changes.isEmpty with
    | true =>
      rw [hchanges] at h
      obtain ⟨rfl, rfl⟩ := Prod.mk.inj h
      exact .clean hfound hchanges
    | false =>
      simp only [hchanges, Bool.false_eq_true, if_false] at h
      obtain ⟨hopen, hheld⟩ := hfound.held
      have hkey : tag.content = d.item.key := Store.content_of_childTag? hheld
      rw [← hkey] at hheld
      rcases hforget : (forget tag (b.planIn m tag d.item)).run s with ⟨rf, s'⟩
      obtain ⟨hlater, ⟨e, rfl, hstored⟩ | ⟨rfl, hopen', hstored⟩⟩ :=
        forget_spec (hfound.supply.showsDates hclock) hopen hheld hforget
      · rw [hforget] at h
        obtain ⟨rfl, rfl⟩ := Prod.mk.inj h
        exact .refused hfound hlater hstored
      · rw [hforget] at h
        obtain ⟨rfl, rfl⟩ := Prod.mk.inj h
        exact .carriedOut hfound hchanges hlater hopen' hstored

end Importing

end Rulebook

/-! ## What is left -/

/-- The item is as it was, and so are the rows, but for a child tag without changes that it may have
got. -/
structure Desk.UntouchedButTag (d d' : Desk) : Prop where
  ownTag : d'.store.stored.childTag? d.item.key = d.store.stored.childTag? d.item.key ∨
    d.store.stored.childTag? d.item.key = .ok none ∧
      ∃ tag, d'.store.stored.childTag? d.item.key = .ok (some tag) ∧ tag.changes = ∅
  attributes : d'.item.attributes = d.item.attributes
  pending : d'.item.pending = d.item.pending
  skipped : d'.skipped = d.skipped

/-- A plan was carried out on the item and its tag. -/
structure Desk.CarriedOut (d : Desk) (tag : ChildTag) (p : Reconciliation.Plan) (d' : Desk) :
    Prop where
  ownTag : ∃ tag', d'.store.stored.childTag? d.item.key = .ok (some tag') ∧
    tag'.changes = tag.changes \ p.forget
  pending : ∀ column, d'.item.pending.get? column =
    if column ∈ p.takeBack then none else d.item.pending.get? column
  value : ∀ column, d'.item.value column =
    if column ∈ p.takeBack then d.item.original column else d.item.value column
  skipped : d'.skipped = if p.takeBack.isEmpty then d.skipped
    else d.skipped ++ [{ tag with changes := tag.changes \ p.forget }]

/-- Whether the item's own child tag records a column. -/
def Desk.Records (d : Desk) (column : String) : Prop :=
  ∃ tag, d.store.stored.childTag? d.item.key = .ok (some tag) ∧ column ∈ tag.changes

namespace Rulebook.Reconciled

open Reconciliation (Plan)

variable {b : Rulebook} {m : Migration} {d d' : Desk} {r : Result Reconciliation}

theorem takenBack_frame (d : Desk) (tag : ChildTag) (p : Reconciliation.Plan) :
    (d.takenBack tag p).store = d.store ∧ (d.takenBack tag p).handed = d.handed ∧
      ∃ attributes pending, (d.takenBack tag p).item =
        { d.item with attributes := attributes, pending := pending } := by
  unfold Desk.takenBack
  split
  · exact ⟨rfl, rfl, _, _, rfl⟩
  · exact ⟨rfl, rfl, Item.restore_frame _ _⟩

theorem takenBack_item (d : Desk) (tag : ChildTag) (p : Reconciliation.Plan) :
    (d.takenBack tag p).item = d.item.restore p.takeBack := by
  unfold Desk.takenBack
  split
  · next hempty =>
    rw [List.isEmpty_iff.1 hempty]
    rfl
  · rfl

theorem takenBack_skipped (d : Desk) (tag : ChildTag) (p : Reconciliation.Plan) :
    (d.takenBack tag p).skipped = if p.takeBack.isEmpty then d.skipped
      else d.skipped ++ [{ tag with changes := tag.changes \ p.forget }] := by
  unfold Desk.takenBack
  split
  · rfl
  · rfl

/-- Reconciling hands nothing over, and changes of the item only attributes and pending changes, and
the locks kept with it. -/
theorem frame (h : b.Reconciled m d r d') :
    d'.handed = d.handed ∧ ∃ attributes pending kept, d'.item =
      { d.item with attributes := attributes, pending := pending, childRestrictions := kept } := by
  cases h with
  | unfound => exact ⟨rfl, _, _, _, rfl⟩
  | clean => exact ⟨rfl, _, _, _, rfl⟩
  | refused => exact ⟨rfl, _, _, _, rfl⟩
  | @carriedOut tag s s' =>
    obtain ⟨-, hhanded, attributes, pending, hitem⟩ := takenBack_frame
      (({ d with store := s' } : Desk).withLocks (d.item.locksIn m)) tag (b.planIn m tag d.item)
    exact ⟨hhanded, attributes, pending, _, hitem⟩

/-- Reconciling leaves the tags of other contents. -/
theorem others (h : b.Reconciled m d r d') {content : ContentKey} (hne : content ≠ d.item.key) :
    d'.store.stored.childTag? content = d.store.stored.childTag? content := by
  cases h with
  | unfound hfound => exact hfound.childTag?_of_ne hne
  | clean hfound => exact hfound.childTag?_of_ne hne
  | refused hfound hlater hstored =>
    refine Eq.trans ?_ (hfound.childTag?_of_ne hne)
    exact congrArg (fun st => st.childTag? content) hstored
  | @carriedOut tag s s' hfound hchanges hlater hopen hstored =>
    rw [(takenBack_frame _ _ _).1]
    refine Eq.trans ?_ (hfound.childTag?_of_ne hne)
    obtain ⟨-, hheld⟩ := hfound.held
    have hkey : tag.content = d.item.key := Store.content_of_childTag? hheld
    rcases hstored with ⟨-, hstored⟩ | hstored
    · exact congrArg (fun st => st.childTag? content) hstored
    · exact (Store.childTag?_of_setsChanges hstored).2 content (by rw [hkey]; exact hne)

/-- What was found or created and not worked on is as it was, or new and without changes. -/
theorem ownTag_of_found {s s' : Store} {subscription : Uuid} {content : ContentKey}
    {migrationId : Option String} {tag : ChildTag}
    (h : Store.FoundOrCreated s subscription content migrationId (.ok tag) s') :
    s'.stored.childTag? content = s.stored.childTag? content ∨
      s.stored.childTag? content = .ok none ∧
        ∃ tag, s'.stored.childTag? content = .ok (some tag) ∧ tag.changes = ∅ := by
  obtain ⟨-, hheld⟩ := h.held
  rcases h.ends with ⟨e, he, -⟩ | ⟨tag', htag, -, -, hstored | ⟨rows, hrows, hnone, -, -, -,
    hchanges, -⟩⟩
  · cases he
  · rw [hstored]
    exact .inl rfl
  · cases htag
    rw [Store.childTag?_of_rows hrows, hnone]
    exact .inr ⟨rfl, tag, hheld, hchanges⟩

/-- A reconciliation that fails leaves the item and what is recorded. -/
theorem untouched_of_error {e : Failure} (h : b.Reconciled m d (.error e) d') :
    d.UntouchedButTag d' := by
  cases h with
  | unfound hfound => exact ⟨.inl (by rw [hfound.stored_of_error]), rfl, rfl, rfl⟩
  | refused hfound hlater hstored =>
    refine ⟨?_, rfl, rfl, rfl⟩
    simp only [Desk.store_withLocks, hstored]
    exact ownTag_of_found hfound

/-- So does one of an item without a tag. -/
theorem untouched_of_untagged (h : b.Reconciled m d r d')
    (htag : d.store.stored.childTag? d.item.key = .ok none) : d.UntouchedButTag d' := by
  cases h with
  | unfound hfound => exact ⟨.inl (by rw [hfound.stored_of_error]), rfl, rfl, rfl⟩
  | clean hfound => exact ⟨ownTag_of_found hfound, rfl, rfl, rfl⟩
  | refused hfound hlater hstored =>
    refine ⟨?_, rfl, rfl, rfl⟩
    simp only [Desk.store_withLocks, hstored]
    exact ownTag_of_found hfound
  | carriedOut hfound hchanges =>
    rw [hfound.changes_of_not_held htag] at hchanges
    cases hchanges

/-- A tag without changes asks for nothing. -/
theorem planIn_of_clean {tag : ChildTag} (h : tag.changes.isEmpty = true) (i : Item) :
    (∀ column, ¬ column ∈ (b.planIn m tag i).forget) ∧ (b.planIn m tag i).takeBack = [] := by
  have hnone : ∀ column, ¬ column ∈ tag.changes := NameSet.isEmpty_iff.1 h
  have hback : Reconciliation.Plan.bringsBack tag i = false := by
    unfold Reconciliation.Plan.bringsBack ChildTag.isManuallyDeleted
    rw [decide_eq_false (hnone _), Bool.and_false]
  constructor
  · intro column hcolumn
    exact hnone column (Reconciliation.Plan.mem_changes_of_mem_forget hcolumn)
  · refine List.eq_nil_iff_forall_not_mem.2 fun column hcolumn => ?_
    rcases Reconciliation.Plan.mem_takeBack_full.1 hcolumn with
      ⟨-, g, -, -, x, -, hx⟩ | ⟨-, hback', -⟩
    · exact hnone x hx
    · rw [hback] at hback'
      cases hback'

/-- A reconciliation of an item with a tag that does not fail has carried out the plan for it. -/
theorem carriedOut_of_held {reconciliation : Reconciliation} {tag : ChildTag}
    (h : b.Reconciled m d (.ok reconciliation) d')
    (htag : d.store.stored.childTag? d.item.key = .ok (some tag)) :
    d.CarriedOut tag (b.planIn m tag d.item) d' := by
  cases h with
  | clean hfound hclean =>
    obtain ⟨rfl, hstored⟩ := hfound.eq_of_held htag
    obtain ⟨hforget, htakeBack⟩ := planIn_of_clean (b := b) (m := m) hclean d.item
    refine ⟨⟨_, hfound.held.2, ?_⟩, ?_, ?_, ?_⟩
    · refine (diff_of_isEmpty (NameSet.isEmpty_iff.2 hforget)).symm
    · simp [htakeBack]
    · simp [htakeBack, Item.value]
    · simp [htakeBack]
  | @carriedOut tag' s s' hfound hchanges hlater hopen hstored =>
    obtain ⟨rfl, -⟩ := hfound.eq_of_held htag
    obtain ⟨-, hheld⟩ := hfound.held
    have hkey : tag'.content = d.item.key := Store.content_of_childTag? hheld
    have hown : ∃ tag, s'.stored.childTag? d.item.key = .ok (some tag) ∧
        tag.changes = tag'.changes \ (b.planIn m tag' d.item).forget := by
      rcases hstored with ⟨hsame, hstored⟩ | hstored
      · exact ⟨tag', by rw [hstored, hheld], hsame.symm⟩
      · rw [← hkey]
        exact (Store.childTag?_of_setsChanges hstored).1
    refine ⟨?_, ?_, ?_, ?_⟩
    · rw [(takenBack_frame _ _ _).1]
      exact hown
    · intro column
      rw [takenBack_item, Item.pending_restore]
      rfl
    · intro column
      rw [takenBack_item, Item.value_restore]
      rfl
    · rw [takenBack_skipped]
      rfl

/-- What is recorded after a reconciliation: what was recorded and not to be forgotten. -/
theorem records_iff {reconciliation : Reconciliation}
    (h : b.Reconciled m d (.ok reconciliation) d') {tag : ChildTag}
    (htag : d.store.stored.childTag? d.item.key = .ok (some tag)) (column : String) :
    d'.Records column ↔ column ∈ tag.changes ∧ ¬ column ∈ (b.planIn m tag d.item).forget := by
  obtain ⟨tag', htag', hchanges⟩ := (h.carriedOut_of_held htag).ownTag
  obtain ⟨-, attributes, pending, kept, hitem⟩ := h.frame
  have hkey : d'.item.key = d.item.key := by rw [hitem]
  unfold Desk.Records
  rw [hkey, htag', ← NameSet.mem_diff, ← hchanges]
  simp

theorem records_of_untagged {r : Result Reconciliation} (h : b.Reconciled m d r d')
    (htag : d.store.stored.childTag? d.item.key = .ok none) (column : String) :
    ¬ d'.Records column := by
  obtain ⟨-, attributes, pending, kept, hitem⟩ := h.frame
  have hkey : d'.item.key = d.item.key := by rw [hitem]
  rintro ⟨tag, htag', hcolumn⟩
  rw [hkey] at htag'
  rcases (h.untouched_of_untagged htag).ownTag with hown | ⟨-, tag₀, htag₀, hchanges⟩
  · rw [hown, htag] at htag'
    cases htag'
  · rw [htag₀] at htag'
    obtain rfl := Option.some.inj (Except.ok.inj htag')
    rw [hchanges] at hcolumn
    exact NameSet.not_mem_empty column hcolumn

/-- A reconciliation that answers knows whether the item has a tag. -/
theorem held_or_untagged {reconciliation : Reconciliation}
    (h : b.Reconciled m d (.ok reconciliation) d') :
    d.store.stored.childTag? d.item.key = .ok none ∨
      ∃ tag, d.store.stored.childTag? d.item.key = .ok (some tag) := by
  have hfound : ∃ tag s, Store.FoundOrCreated d.store m.subscription.id d.item.key
      d.item.migrationId (.ok tag) s := by
    cases h with
    | clean hfound => exact ⟨_, _, hfound⟩
    | carriedOut hfound => exact ⟨_, _, hfound⟩
  obtain ⟨tag, s, hfound⟩ := hfound
  rcases ownTag_of_found hfound with hown | ⟨hnone, -⟩
  · exact .inr ⟨tag, by rw [← hown]; exact hfound.held.2⟩
  · exact .inl hnone

/-- A pending change stays or is taken back, and none is taken back of an item without a tag. -/
theorem pending_same_or_takenBack {reconciliation : Reconciliation}
    (h : b.Reconciled m d (.ok reconciliation) d') (column : String) :
    d'.item.pending.get? column = d.item.pending.get? column ∨
      ∃ tag, d.store.stored.childTag? d.item.key = .ok (some tag) ∧
        column ∈ (b.planIn m tag d.item).takeBack := by
  rcases h.held_or_untagged with hnone | ⟨tag, htag⟩
  · exact .inl (by rw [(h.untouched_of_untagged hnone).pending])
  · by_cases hback : column ∈ (b.planIn m tag d.item).takeBack
    · exact .inr ⟨tag, htag, hback⟩
    · refine .inl ?_
      rw [(h.carriedOut_of_held htag).pending, if_neg hback]

theorem pending_eq_none_iff {reconciliation : Reconciliation}
    (h : b.Reconciled m d (.ok reconciliation) d') (column : String) :
    d'.item.pending.get? column = none ↔ d.item.pending.get? column = none ∨
      ∃ tag, d.store.stored.childTag? d.item.key = .ok (some tag) ∧
        column ∈ (b.planIn m tag d.item).takeBack := by
  constructor
  · intro hnone
    rcases h.pending_same_or_takenBack column with hsame | htaken
    · exact .inl (hsame ▸ hnone)
    · exact .inr htaken
  · rintro (hnone | ⟨tag, htag, htaken⟩)
    · rcases h.pending_same_or_takenBack column with hsame | ⟨tag, htag, htaken⟩
      · rw [hsame, hnone]
      · rw [(h.carriedOut_of_held htag).pending, if_pos htaken]
    · rw [(h.carriedOut_of_held htag).pending, if_pos htaken]

/-- The values at the last save stay what they were. -/
theorem original_eq {reconciliation : Reconciliation}
    (h : b.Reconciled m d (.ok reconciliation) d') (column : String) :
    d'.item.original column = d.item.original column := by
  rcases h.held_or_untagged with hnone | ⟨tag, htag⟩
  · have huntouched := h.untouched_of_untagged hnone
    rw [Item.original, Item.original, Item.value, Item.value, huntouched.pending,
      huntouched.attributes]
  · have hdone := h.carriedOut_of_held htag
    by_cases htaken : column ∈ (b.planIn m tag d.item).takeBack
    · have hpending : d'.item.pending.get? column = none := by rw [hdone.pending, if_pos htaken]
      rw [Item.original_of_not_pending hpending, hdone.value, if_pos htaken]
    · rw [Item.original, Item.original, hdone.pending, if_neg htaken, hdone.value, if_neg htaken]

end Rulebook.Reconciled

/-! ## A page and its copy -/

namespace Sample

/-- A deployment without any choice. -/
def rulebook : Rulebook := ⟨.usual, Registry.builtin, .usual⟩

/-- The copy of a page. -/
def page : ContentKey := ⟨.wikiPage, ⟨1⟩⟩

/-- What the page and its copy share. -/
def migrationId : String := "mastercourse_page"

def subscription : Subscription := ⟨⟨2⟩, ⟨3⟩, ⟨4⟩⟩

/-- The child tag of a piece of content with recorded changes. -/
def tag (content : ContentKey) (changes : List String) : ChildTag :=
  ⟨⟨5⟩, subscription.id, content, some migrationId, .ofList changes, .epoch, .epoch⟩

/-- A store that holds child tags only. -/
def store (tags : List ChildTag) : Store :=
  ⟨.memory { Memory.empty with tables := { Tables.empty with childTags := tags } }, supply⟩

/-- An import under one lock of the page. -/
def importUnder (l : Lock) : Migration :=
  (Migration.new subscription).withRestrictions migrationId (Restrictions.none.set l true)

/-- The copy with a new body. -/
def edited : Item :=
  { Item.persisted page ∅ with migrationId := some migrationId }.set "body" (.string "new")

/-- The copy with a new body, where the child course has changed some columns. -/
def desk (changes : List String) : Desk := ⟨store [tag page changes], edited, [], []⟩

end Sample

end CourseBlueprint
