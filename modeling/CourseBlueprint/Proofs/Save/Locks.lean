import CourseBlueprint.Proofs.Schema
import CourseBlueprint.Proofs.Store.Records
import CourseBlueprint.Save.Locks

/-!
# What the locks in force forbid

The locks in force on an item are found once and kept with it. In an import they depend on the item
and the migration only (`Item.locksIn`). The scope query answers from them alone, the lock of
everything included, and the check of a save rejects exactly the pending columns that lie in a
category with a lock of its own (`mem_lockedAmong`).
-/

namespace CourseBlueprint

/-! ## Desks -/

namespace Work

variable {α : Type}

theorem run_store (x : Action Store α) (d : Desk) :
    (Work.store x).run d = ((x.run d.store).1, { d with store := (x.run d.store).2 }) := rfl

theorem run_store_of {x : Action Store α} {d : Desk} {r : Result α} {s : Store}
    (h : x.run d.store = (r, s)) : (Work.store x).run d = (r, { d with store := s }) := by
  rw [run_store, h]

@[simp] theorem run_item (d : Desk) : Work.item.run d = (.ok d.item, d) := rfl

@[simp] theorem run_modifyItem (f : Item → Item) (d : Desk) :
    (Work.modifyItem f).run d = (.ok (), { d with item := f d.item }) := rfl

theorem keeps_item {P : Desk → Prop} : Action.Keeps P Work.item := fun _ h => h

/-! ### Work and the store -/

variable {P E : Store → Prop} {Q : α → Store → Prop}

theorem triple_store {x : Action Store α} (h : Action.Triple P x Q E) :
    Action.Triple (fun d : Desk => P d.store) (Work.store x) (fun a d => Q a d.store)
      fun d => E d.store := by
  intro d hd
  have hstore := h d.store hd
  rw [run_store]
  rcases hrun : x.run d.store with ⟨e | a, s⟩
  · rw [hrun] at hstore
    exact hstore
  · rw [hrun] at hstore
    exact hstore

theorem keeps_store {x : Action Store α} (h : Action.Keeps P x) :
    Action.Keeps (fun d : Desk => P d.store) (Work.store x) := triple_store h

theorem keeps_modifyItem (f : Item → Item) :
    Action.Keeps (fun d : Desk => P d.store) (Work.modifyItem f) := fun _ h => h

/-- Work on an item does to the store what it does to that of its desk. -/
theorem triple_on {P' : Store → Prop} {x : Work α}
    (h : Action.Triple (fun d : Desk => P d.store) x (fun _ d => P' d.store) fun d => E d.store)
    (i : Item) : Action.Triple P (Work.on i x) (fun _ => P') E := by
  intro s hs
  have hdesk := h ⟨s, i, [], []⟩ hs
  rw [Work.on, Action.run_of]
  rcases hrun : x.run ⟨s, i, [], []⟩ with ⟨e | a, d⟩
  · rw [hrun] at hdesk
    exact hdesk
  · rw [hrun] at hdesk
    exact hdesk

theorem keeps_on {x : Work α} (h : Action.Keeps (fun d : Desk => P d.store) x) (i : Item) :
    Action.Keeps P (Work.on i x) := triple_on h i

end Work

/-- The item with locks kept with it. -/
def Item.withLocks (i : Item) (r : Restrictions) : Item := { i with childRestrictions := some r }

/-- The desk with locks kept with its item. -/
def Desk.withLocks (d : Desk) (r : Restrictions) : Desk := { d with item := d.item.withLocks r }

@[simp] theorem Desk.store_withLocks (d : Desk) (r : Restrictions) :
    (d.withLocks r).store = d.store := rfl

theorem Item.withLocks_of_eq {i : Item} {r : Restrictions} (h : i.childRestrictions = some r) :
    i.withLocks r = i := by
  unfold withLocks
  rw [← h]

theorem Desk.withLocks_of_eq {d : Desk} {r : Restrictions} (h : d.item.childRestrictions = some r) :
    d.withLocks r = d := by
  unfold withLocks
  rw [Item.withLocks_of_eq h]

/-- The locks that an import goes by: those kept with the item, or else those that the migration
knows. -/
def Item.locksIn (i : Item) (m : Migration) : Restrictions :=
  i.childRestrictions.getD ((i.migrationId.bind m.find?).getD .none)

/-- The restrictions of the first master tag under a migration identifier; none without one. -/
def MasterTag.locksUnder (rows : List MasterTag) (id : String) : Restrictions :=
  ((rows.find? fun t => t.migrationId = id).map MasterTag.restrictions).getD .none

/-- What restrictions say about a scope of a schema, the lock of everything included. -/
def Restrictions.restrict (r : Restrictions) (s : Schema) (scope : Scope) : Bool :=
  !r.isEmpty && (r.locksEverything || Rulebook.answersScope r s scope)

/-- One lock counts whether the schema has its category or not. -/
theorem Restrictions.restrict_only (r : Restrictions) (s : Schema) (l : Lock) :
    r.restrict s (.only l) = (r.locksEverything || r.isOn l) := by
  unfold restrict
  cases hempty : r.isEmpty with
  | false => rfl
  | true =>
    rw [locksEverything, isOn_of_isEmpty hempty, isOn_of_isEmpty hempty]
    rfl

/-- Anything is restricted if everything is locked or a registered category is. -/
theorem Restrictions.restrict_any_iff {r : Restrictions} {s : Schema} :
    r.restrict s .any = true ↔
      r.locksEverything = true ∨ ∃ g ∈ s.categories, r.isLocked g = true := by
  unfold restrict
  cases hempty : r.isEmpty with
  | false => simp [Rulebook.answersScope]
  | true => simp [locksEverything, isLocked, isOn_of_isEmpty hempty]

namespace Rulebook

variable {b : Rulebook} {c : Context} {d : Desk}

/-! ## Locks in force -/

theorem run_restrictionsInForce_of_kept {r : Restrictions} (h : d.item.childRestrictions = some r) :
    (restrictionsInForce c).run d = (.ok r, d) := by
  rw [restrictionsInForce, Action.run_bind_ok (Work.run_item d)]
  simp only [h]
  rfl

/-- In an import the locks in force depend on the item and the migration only. -/
theorem run_restrictionsInForce_import {m : Migration} (hc : c.migration = some m) :
    (restrictionsInForce c).run d = (.ok (d.item.locksIn m), d.withLocks (d.item.locksIn m)) := by
  cases hkept : d.item.childRestrictions with
  | some r =>
    have hlocks : d.item.locksIn m = r := by rw [Item.locksIn, hkept]; rfl
    rw [run_restrictionsInForce_of_kept hkept, hlocks, Desk.withLocks_of_eq hkept]
  | none =>
    have hlocks : d.item.locksIn m = (d.item.migrationId.bind m.find?).getD .none := by
      rw [Item.locksIn, hkept]; rfl
    rw [restrictionsInForce, Action.run_bind_ok (Work.run_item d), hlocks]
    simp only [hkept, hc]
    cases d.item.migrationId with
    | none => rfl
    | some id => rfl

/-- In any other save they are those of the master tag that is seen under the item's migration
identifier. -/
theorem run_restrictionsInForce_user {id : String} {rows : List MasterTag}
    (hc : c.migration = none) (hkept : d.item.childRestrictions = none)
    (hid : d.item.migrationId = some id) (hrows : d.store.seen.masterTags = .ok rows) :
    ∃ s, d.store.Alike s ∧ (restrictionsInForce c).run d =
      (.ok (MasterTag.locksUnder rows id),
        { d with store := s }.withLocks (MasterTag.locksUnder rows id)) := by
  obtain ⟨s, halike, hrun⟩ := Store.run_masterTag? id d.store
  refine ⟨s, halike, ?_⟩
  rw [hrows] at hrun
  rw [restrictionsInForce, Action.run_bind_ok (Work.run_item d)]
  simp only [hkept, hid, hc]
  rw [Action.run_bind, Action.run_map, Work.run_store_of hrun]
  rfl

/-! ## The scope query -/

/-- The scope query answers from the locks in force alone. -/
theorem run_isRestricted {r : Restrictions} {d' : Desk} (hcopy : b.isCopy d.item = true)
    (h : (restrictionsInForce c).run d = (.ok r, d')) (scope : Scope) :
    (b.isRestricted c scope).run d = (.ok (r.restrict (b.schemaOf d.item) scope), d') := by
  rw [isRestricted, Action.run_bind_ok (Work.run_item d)]
  simp only [hcopy, Bool.not_true, Bool.false_eq_true, if_false]
  rw [Action.run_bind_ok h]
  rfl

/-! ## Locked columns -/

theorem mem_pendingWithin {i : Item} {columns : List String} {column : String} :
    column ∈ pendingWithin i columns ↔ column ∈ i.pending.keys ∧ column ∈ columns := by
  unfold pendingWithin
  rw [List.mem_filter, decide_eq_true_eq]

/-- The pending columns of locked categories, each once. -/
def lockedAmong (r : Restrictions) (i : Item) (entries : List (Category × List String))
    (acc : List String) : List String :=
  entries.foldl (fun acc e =>
    if r.isLocked e.1 then Schema.addColumns acc (pendingWithin i e.2) else acc) acc

/-- A column is among them if it is pending and a category with a lock of its own governs it. -/
theorem mem_lockedAmong {r : Restrictions} {i : Item} {entries : List (Category × List String)}
    {acc : List String} {column : String} :
    column ∈ lockedAmong r i entries acc ↔ column ∈ acc ∨
      column ∈ i.pending.keys ∧ ∃ e ∈ entries, r.isLocked e.1 = true ∧ column ∈ e.2 := by
  unfold lockedAmong
  induction entries generalizing acc with
  | nil => simp
  | cons e entries ih =>
    rw [List.foldl_cons, ih]
    cases hlocked : r.isLocked e.1 with
    | true => simp [Schema.mem_addColumns, mem_pendingWithin, hlocked]; grind
    | false => simp [hlocked]

/-- Once the locks are kept with the item, the locked columns are found by them. -/
theorem run_lockedColumns_of_kept {r : Restrictions} (h : d.item.childRestrictions = some r)
    (entries : List (Category × List String)) (acc : List String) :
    (lockedColumns c entries acc).run d = (.ok (lockedAmong r d.item entries acc), d) := by
  induction entries generalizing acc with
  | nil => rfl
  | cons e entries ih =>
    obtain ⟨g, columns⟩ := e
    rw [lockedColumns, Action.run_bind_ok (Work.run_item d)]
    simp only
    split
    · next hempty =>
      have hnil : pendingWithin d.item columns = [] := List.isEmpty_iff.1 hempty
      rw [ih, lockedAmong, lockedAmong, List.foldl_cons, hnil]
      simp [Schema.addColumns]
    · rw [Action.run_bind_ok (run_restrictionsInForce_of_kept h), ih]
      rfl

/-- The locked columns are found by the locks in force, which are looked up if it takes any. -/
theorem run_lockedColumns {r : Restrictions} {d' : Desk}
    (h : (restrictionsInForce c).run d = (.ok r, d'))
    (hitem : d'.item = d.item.withLocks r) (entries : List (Category × List String))
    (acc : List String) :
    ∃ d'', (d'' = d ∨ d'' = d') ∧
      (lockedColumns c entries acc).run d = (.ok (lockedAmong r d.item entries acc), d'') := by
  induction entries generalizing acc with
  | nil => exact ⟨d, .inl rfl, rfl⟩
  | cons e entries ih =>
    obtain ⟨g, columns⟩ := e
    rw [lockedColumns, Action.run_bind_ok (Work.run_item d)]
    simp only
    split
    · next hempty =>
      have hnil : pendingWithin d.item columns = [] := List.isEmpty_iff.1 hempty
      obtain ⟨d'', hd'', hrun⟩ := ih acc
      refine ⟨d'', hd'', ?_⟩
      rw [hrun, lockedAmong, lockedAmong, List.foldl_cons, hnil]
      simp [Schema.addColumns]
    · refine ⟨d', .inr rfl, ?_⟩
      rw [Action.run_bind_ok h, run_lockedColumns_of_kept (by rw [hitem]; rfl), hitem]
      rfl

/-! ## Checking a save -/

/-- The check that the locked columns amount to. -/
def checkOf (locked : List String) : Check ⊕ Rejection :=
  if locked.isEmpty then .inl .accepted else .inr ⟨locked⟩

theorem checkOf_eq_inr {locked : List String} {r : Rejection} :
    checkOf locked = .inr r ↔ locked ≠ [] ∧ r = ⟨locked⟩ := by
  cases locked with
  | nil => simp [checkOf]
  | cons column rest => simp [checkOf, eq_comm]

theorem run_check_of_unrestricted
    (h : (d.item.isNew || b.skips c d.item || b.settings.exempt d.item.key.kind) = true) :
    (b.check c).run d = (.ok (.inl .unrestricted), d) := by
  rw [check, Action.run_bind_ok (Work.run_item d)]
  simp only [h, if_true]
  rfl

/-- A save that the locks apply to is rejected for the pending columns of locked categories. -/
theorem run_check {r : Restrictions} {d' : Desk}
    (happlies : (d.item.isNew || b.skips c d.item || b.settings.exempt d.item.key.kind) = false)
    (h : (restrictionsInForce c).run d = (.ok r, d')) (hitem : d'.item = d.item.withLocks r) :
    ∃ d'', (d'' = d ∨ d'' = d') ∧ (b.check c).run d =
      (.ok (checkOf (lockedAmong r d.item (b.schemaOf d.item).entries [])), d'') := by
  obtain ⟨d'', hd'', hrun⟩ := run_lockedColumns h hitem (b.schemaOf d.item).entries []
  refine ⟨d'', hd'', ?_⟩
  rw [check, Action.run_bind_ok (Work.run_item d)]
  simp only [happlies, Bool.false_eq_true, if_false]
  rw [Action.run_bind_ok hrun]
  rfl

end Rulebook

/-! ## Looking -/

/-- A desk on which nothing was changed: rows may have been read and locks kept with the item. -/
structure Desk.Unmoved (d d' : Desk) : Prop where
  store : d.store.Alike d'.store
  item : ∃ kept, d'.item = { d.item with childRestrictions := kept }
  skipped : d'.skipped = d.skipped
  handed : d'.handed = d.handed

namespace Desk.Unmoved

variable {d d' : Desk}

theorem refl (d : Desk) : d.Unmoved d := ⟨.refl _, ⟨_, rfl⟩, rfl, rfl⟩

theorem withStore (h : d.Unmoved d') {s : Store} (hs : d'.store.Alike s) :
    d.Unmoved { d' with store := s } :=
  ⟨h.store.trans hs, h.item, h.skipped, h.handed⟩

theorem withLocks (h : d.Unmoved d') (r : Restrictions) : d.Unmoved (d'.withLocks r) := by
  obtain ⟨kept, hitem⟩ := h.item
  refine ⟨h.store, ⟨some r, ?_⟩, h.skipped, h.handed⟩
  show d'.item.withLocks r = _
  rw [hitem]
  rfl

end Desk.Unmoved

namespace Rulebook

variable {b : Rulebook} {c : Context} {d : Desk}

theorem unmoved_restrictionsInForce : Action.Keeps d.Unmoved (restrictionsInForce c) := by
  refine Action.Keeps.bind Work.keeps_item fun i => ?_
  have hkeep : ∀ r : Restrictions, Action.Keeps d.Unmoved
      (Work.modifyItem (fun i => { i with childRestrictions := some r }) >>= fun _ => pure r) :=
    fun r => Action.Keeps.bind (fun d' h => h.withLocks r) fun _ => Action.Keeps.pure r
  have hlook : ∀ id, Action.Keeps d.Unmoved
      (Option.map MasterTag.restrictions <$> Work.store (Store.masterTag? id)) := by
    intro id
    refine Action.Keeps.map (Action.keeps_iff.2 fun d' h => ?_)
    obtain ⟨s, halike, hrun⟩ := Store.run_masterTag? id d'.store
    rw [Work.run_store_of hrun]
    exact h.withStore halike
  split
  · exact Action.Keeps.pure _
  · simp only
    split
    · exact hkeep _
    · exact hkeep _
    · exact Action.Keeps.bind (hlook _) fun found => hkeep _

/-! ### Asking keeps what looking up the locks keeps -/

section Asking

variable {P : Desk → Prop} (hP : Action.Keeps P (restrictionsInForce c))
include hP

theorem keeps_isRestricted_of_inForce (scope : Scope) : Action.Keeps P (b.isRestricted c scope) := by
  refine .bind Work.keeps_item fun i => ?_
  split
  · exact .pure _
  · exact .bind hP fun r => .pure _

theorem keeps_lockedColumns_of_inForce (entries : List (Category × List String))
    (acc : List String) : Action.Keeps P (lockedColumns c entries acc) := by
  induction entries generalizing acc with
  | nil => exact .pure _
  | cons e entries ih =>
    obtain ⟨g, columns⟩ := e
    refine .bind Work.keeps_item fun i => ?_
    simp only
    split
    · exact ih acc
    · exact .bind hP fun r => ih _

theorem keeps_check_of_inForce : Action.Keeps P (b.check c) := by
  refine .bind Work.keeps_item fun i => ?_
  split
  · exact .pure _
  · exact .bind (keeps_lockedColumns_of_inForce hP _ _) fun locked => .pure _

theorem keeps_summary_of_inForce (role : CourseRole) : Action.Keeps P (b.summary c role) := by
  refine .bind Work.keeps_item fun i => ?_
  cases role with
  | master => exact .pure _
  | child =>
    show Action.Keeps _ (if _ then _ else _)
    split
    · exact .pure _
    · exact .bind (keeps_isRestricted_of_inForce hP .any) fun restricted => .bind hP fun r => .pure _

end Asking

/-- Checking a save changes nothing. -/
theorem unmoved_check : Action.Keeps d.Unmoved (b.check c) :=
  keeps_check_of_inForce unmoved_restrictionsInForce

end Rulebook

end CourseBlueprint
