import CourseBlueprint.Proofs.Save.ImportLocks
import CourseBlueprint.Proofs.Save.LockQueries
import CourseBlueprint.Proofs.Save.Stages

/-!
# Locks kept with an item

The first operation on an item that looks up its locks keeps them with it, and no later operation
replaces them (`Item.kept_after`). An import goes by the locks that are kept, whoever looked them up,
and by those that its migration holds only if none are; in either case it decides as for the same item
freshly loaded, in an import that holds these locks (`import_decides`). So an import does not always
decide by its own migration (`Sample.not_decides_by_own_migration`).
-/

namespace CourseBlueprint

/-! ## Operations -/

/-- What can be done to an item that is held by a caller. -/
inductive ItemEvent where
  | save (c : Context) (write : Persist)
  | ask (c : Context) (q : LockQuery)
  | summary (c : Context) (role : CourseRole)
  | reconcile (c : Context)
  | preview (c : Context)
  | record (c : Context) (columns : Option (List String))
  | tag (c : Context)
  /-- The locks of copies are looked up at once, with those of the item between others. -/
  | preload (marker : String) (before after : List Item)
  | preloadMasters (course : Uuid) (marker : String) (before after : List Item)
  | assign (column : String) (value : Json)
  | restore (columns : List String)
  | applied

/-- The item after work on it with a store. -/
def Work.itemAfter {α : Type} (x : Work α) (s : Store) (i : Item) : Item :=
  (x.run ⟨s, i, [], []⟩).2.item

/-- An item after a look-up for many, where it stands after as many others as are given; one that
fails leaves it. -/
def Item.among (i : Item) (before : List Item) : Result (Nat × List Item) → Item
  | .ok (_, items) => items[before.length]?.getD i
  | .error _ => i

/-- The item after something was done to it, whether or not that failed. -/
def ItemEvent.act (b : Rulebook) (s : Store) (i : Item) : ItemEvent → Item
  | save c write => (b.save c write).itemAfter s i
  | ask c q => (q.ask b c).itemAfter s i
  | summary c role => (b.summary c role).itemAfter s i
  | reconcile c => (b.reconcile c).itemAfter s i
  | preview c => (b.keptCategories c).itemAfter s i
  | record c columns => (b.recordChanges c columns).itemAfter s i
  | tag c => (b.tagCopy c).itemAfter s i
  | preload marker before after =>
    i.among before ((Preload.copies marker (before ++ i :: after)).run s).1
  | preloadMasters course marker before after =>
    i.among before ((Preload.masters course marker (before ++ i :: after)).run s).1
  | assign column value => i.set column value
  | restore columns => i.restore columns
  | applied => i.changesApplied

/-- Something that is done to an item, and the store as it is then. -/
structure Moment where
  store : Store
  event : ItemEvent

/-- The item after a history. The store may have become any other from one moment to the next. -/
def Item.after (b : Rulebook) (i : Item) (history : List Moment) : Item :=
  history.foldl (fun i moment => moment.event.act b moment.store i) i

/-! ## What is looked up -/

/-- A look-up in a context finds some locks: those that the migration holds in an import, and those of
the master tag in any other. -/
def Context.Finds (c : Context) (s : Store) (id? : Option String) (r : Restrictions) : Prop :=
  match id?, c.migration with
  | none, _ => r = .none
  | some id, some m => r = (m.find? id).getD .none
  | some id, none => ∃ tag? : Option MasterTag, ((Store.masterTag? id).run s).1 = .ok tag? ∧
      r = (tag?.map MasterTag.restrictions).getD .none

theorem Context.finds_of_import {c : Context} {m : Migration} (hc : c.migration = some m) (s : Store)
    (id? : Option String) : c.Finds s id? ((id?.bind m.find?).getD .none) := by
  unfold Finds
  cases id? with
  | none => rfl
  | some id => rw [hc]; rfl

theorem Context.finds_of_user {c : Context} (hc : c.migration = none) {s s' : Store} {id : String}
    {tag? : Option MasterTag} (h : (Store.masterTag? id).run s = (.ok tag?, s')) :
    c.Finds s (some id) ((tag?.map MasterTag.restrictions).getD .none) := by
  unfold Finds
  rw [hc]
  exact ⟨tag?, by rw [h], rfl⟩

/-- A look-up for many items finds some locks for one of them. -/
def Preload.Finds (s : Store) (id? : Option String) (r : Restrictions) : Prop :=
  ∃ id ids found, id? = some id ∧ id ∈ ids ∧ ((Store.restrictionsOf ids none).run s).1 = .ok found ∧
    r = Preload.restrictionsIn found id

/-- What is done looks up some locks of the item. -/
def ItemEvent.Finds (s : Store) (id? : Option String) (r : Restrictions) : ItemEvent → Prop
  | save c _ => c.Finds s id? r
  | ask c _ => c.Finds s id? r
  | summary c _ => c.Finds s id? r
  | reconcile c => c.Finds s id? r
  | preview c => c.Finds s id? r
  | preload _ _ _ => Preload.Finds s id? r
  | _ => False

/-- An item after something was done to it: the locks that it kept it keeps, and if it kept none, those
it keeps now were found. -/
structure Item.Kept (found : Restrictions → Prop) (i i' : Item) : Prop where
  key : i'.key = i.key
  migrationId : i'.migrationId = i.migrationId
  old : ∀ r, i.childRestrictions = some r → i'.childRestrictions = some r
  new : i.childRestrictions = none → ∀ r, i'.childRestrictions = some r → found r

namespace Item.Kept

variable {found : Restrictions → Prop} {i i' i'' : Item}

theorem refl (i : Item) : i.Kept found i := by
  refine ⟨rfl, rfl, fun r h => h, fun hnone r h => ?_⟩
  rw [hnone] at h
  cases h

theorem congr (h : i.Kept found i') (hkey : i''.key = i'.key)
    (hid : i''.migrationId = i'.migrationId)
    (hlocks : i''.childRestrictions = i'.childRestrictions) : i.Kept found i'' :=
  ⟨hkey.trans h.key, hid.trans h.migrationId, by rw [hlocks]; exact h.old,
    by rw [hlocks]; exact h.new⟩

/-- Locks that were found may be kept where none were. -/
theorem withLocks (h : i.Kept found i') (hnone : i'.childRestrictions = none) {r : Restrictions}
    (hr : found r) : i.Kept found (i'.withLocks r) := by
  refine ⟨h.key, h.migrationId, fun r' hr' => ?_, fun _ r' hr' => ?_⟩
  · rw [h.old r' hr'] at hnone
    cases hnone
  · rw [← Option.some.inj hr']
    exact hr

end Item.Kept

/-! ## One operation -/

namespace Rulebook

variable {b : Rulebook} {c : Context} {s : Store} {i : Item}

/-- A desk on which an item is worked on in a context. A store that is asked for locks shows what it did
at first, which an import does not ask. -/
structure Working (c : Context) (s : Store) (i : Item) (d : Desk) : Prop where
  kept : i.Kept (c.Finds s i.migrationId) d.item
  store : c.migration = none → s.Alike d.store

theorem kept_restrictionsInForce : Action.Keeps (Working c s i) (restrictionsInForce c) := by
  refine Action.keeps_iff.2 fun d hd => ?_
  cases hkept : d.item.childRestrictions with
  | some r =>
    rw [run_restrictionsInForce_of_kept hkept]
    exact hd
  | none =>
    cases hc : c.migration with
    | some m =>
      rw [run_restrictionsInForce_import hc]
      refine ⟨hd.kept.withLocks hkept ?_, fun h => ?_⟩
      · rw [Item.locksIn, hkept, hd.kept.migrationId]
        exact Context.finds_of_import hc s i.migrationId
      · rw [hc] at h
        cases h
    | none =>
      rw [restrictionsInForce, Action.run_bind_ok (Work.run_item d)]
      simp only [hkept, hc]
      cases hid : d.item.migrationId with
      | none =>
        rw [hd.kept.migrationId] at hid
        refine ⟨hd.kept.withLocks hkept ?_, hd.store⟩
        rw [hid]
        rfl
      | some id =>
        obtain ⟨s', halike, hrun⟩ := Store.run_masterTag? id d.store
        obtain ⟨s'', -, hthen⟩ := Store.run_masterTag? id s
        rw [(hd.store hc).seen] at hrun
        rw [hd.kept.migrationId] at hid
        have hstore := (hd.store hc).trans halike
        simp only
        rw [Action.run_bind, Action.run_map, Work.run_store_of hrun]
        rcases hseen : s.seen.masterTags with e | rows
        · exact ⟨hd.kept, fun _ => hstore⟩
        · refine ⟨hd.kept.withLocks hkept ?_, fun _ => hstore⟩
          rw [hseen] at hthen
          rw [hid]
          exact Context.finds_of_user hc hthen

/-- Only the item counts once the store is not asked for locks any more. -/
def Has (c : Context) (s : Store) (i : Item) (d : Desk) : Prop := i.Kept (c.Finds s i.migrationId) d.item

theorem has_store {α : Type} (x : Action Store α) : Action.Keeps (Has c s i) (Work.store x) :=
  Action.keeps_iff.2 fun _ hd => hd

theorem has_restrictionsInForce {m : Migration} (hc : c.migration = some m) :
    Action.Keeps (Has c s i) (restrictionsInForce c) := by
  refine Action.keeps_iff.2 fun d hd => ?_
  have hworking : Working c s i d := ⟨hd, fun h => by rw [hc] at h; cases h⟩
  exact (Action.keeps_iff.1 kept_restrictionsInForce d hworking).kept

theorem has_carryOut (tag : ChildTag) (p : Reconciliation.Plan) :
    Action.Keeps (Has c s i) (carryOut tag p) := by
  refine Action.keeps_iff.2 fun d hd => ?_
  rw [run_carryOut]
  rcases (forget tag p).run d.store with ⟨e | _, s'⟩
  · exact hd
  · obtain ⟨-, -, attributes, pending, hitem⟩ := Reconciled.takenBack_frame { d with store := s' } tag p
    refine hd.congr ?_ ?_ ?_
    · rw [hitem]
    · rw [hitem]
    · rw [hitem]

theorem has_reconcile : Action.Keeps (Has c s i) (b.reconcile c) := by
  refine .bind Work.keeps_item fun i' => ?_
  cases hc : c.migration with
  | none => exact .pure _
  | some m =>
    have hlocks : Action.Keeps (Has c s i) (restrictionsInForce c) := has_restrictionsInForce hc
    have hplan : ∀ tag, Action.Keeps (Has c s i) (b.planFor c tag) := by
      intro tag
      refine .bind hlocks fun r => .bind Work.keeps_item fun i' => ?_
      simp only
      split
      · exact .bind (keeps_isRestricted_of_inForce hlocks .any) fun _ => .pure _
      · exact .pure _
    simp only
    split
    · exact .pure _
    · refine .bind (has_store _) fun tag => ?_
      split
      · exact .pure _
      · exact .bind (hplan tag) fun p => .bind (has_carryOut tag p) fun _ => .pure _

theorem has_keptCategories : Action.Keeps (Has c s i) (b.keptCategories c) := by
  refine .bind Work.keeps_item fun i' => ?_
  cases hc : c.migration with
  | none =>
    simp only [Context.isImport, hc]
    exact .pure _
  | some m =>
    split
    · exact .pure _
    · refine .bind (has_store _) fun tag? => ?_
      split
      · exact .pure _
      · split
        · exact .pure _
        · exact .bind (has_restrictionsInForce hc) fun r => .pure _

/-- Recording changes leaves the item. -/
theorem keepsItem_recordChanges {P : Item → Prop} (columns : Option (List String)) :
    Action.Keeps (fun d : Desk => P d.item) (b.recordChanges c columns) := by
  refine .bind Work.keeps_item fun i' => ?_
  split
  · exact .pure _
  · simp only
    split
    · exact .pure _
    · exact .bind (Action.keeps_iff.2 fun _ hd => hd) fun merge => .pure _

/-- So does making the tag of a copy. -/
theorem keepsItem_tagCopy {P : Item → Prop} :
    Action.Keeps (fun d : Desk => P d.item) (b.tagCopy c) := by
  refine .bind Work.keeps_item fun i' => ?_
  cases c.migration with
  | none => exact .pure _
  | some m =>
    simp only
    split
    · exact .pure _
    · exact .bind (Action.keeps_iff.2 fun _ hd => hd) fun tag => .pure _

theorem working_ask (q : LockQuery) : Action.Keeps (Working c s i) (q.ask b c) := by
  cases q with
  | inForce => exact .map kept_restrictionsInForce
  | restricted scope => exact .map (keeps_isRestricted_of_inForce kept_restrictionsInForce scope)
  | check => exact .map (keeps_check_of_inForce kept_restrictionsInForce)
  | summary => exact .map (keeps_summary_of_inForce kept_restrictionsInForce .child)

/-- Only the check of a save, which is its first stage, may ask the store for locks. -/
theorem kept_save (write : Persist) :
    Action.Triple (Working c s i) (b.save c write) (fun _ => Has c s i) (Has c s i) := by
  have hcheck : Action.Triple (Working c s i) (b.check c) (fun _ => Has c s i) (Has c s i) :=
    Action.Triple.mono (keeps_check_of_inForce kept_restrictionsInForce) (fun _ h => h)
      (fun _ _ h => h.kept) fun _ h => h.kept
  refine hcheck.bind fun checked => ?_
  show Action.Keeps (Has c s i) _
  have happlied : Action.Keeps (Has c s i) (Work.modifyItem Item.changesApplied) :=
    Action.keeps_iff.2 fun d hd => hd.congr rfl rfl rfl
  have hpersist : Action.Keeps (Has c s i) (persist write) :=
    .bind Work.keeps_item fun _ => .bind (Action.keeps_iff.2 fun _ hd => hd) fun _ => .liftM _
  cases checked with
  | inr rejection => exact .pure _
  | inl check =>
    refine .bind Work.keeps_item fun i' => ?_
    simp only
    cases i'.isNew with
    | true =>
      exact .bind (.pure _) fun _ => .bind hpersist fun _ => .bind happlied fun _ =>
        .bind keepsItem_tagCopy fun _ => .pure _
    | false =>
      exact .bind has_reconcile fun _ => .bind hpersist fun _ => .bind happlied fun _ =>
        .bind (keepsItem_recordChanges none) fun _ => .pure _

end Rulebook

/-- What keeps the item with the locks it has, or with those found, does so from its first desk on. -/
theorem Work.kept_itemAfter {α : Type} {x : Work α} {c : Context} {s : Store} {i : Item}
    (h : Action.Triple (Rulebook.Working c s i) x (fun _ => Rulebook.Has c s i)
      (Rulebook.Has c s i)) : i.Kept (c.Finds s i.migrationId) (x.itemAfter s i) :=
  Action.triple_iff.1 h ⟨s, i, [], []⟩ ⟨.refl i, fun _ => .refl s⟩

/-! ### Many items at once -/

namespace Preload

variable {idOf : Item → Option String} {template? : Option Uuid} {give : Restrictions → Item → Item}

/-- A look-up for many items gives the locks that were found to each that qualifies. -/
theorem of_fill {s : Store} {items items' : List Item} {n : Nat}
    (h : ((fill idOf template? give items).run s).1 = .ok (n, items')) :
    items' = items ∨ ∃ ids found, ((Store.restrictionsOf ids template?).run s).1 = .ok found ∧
      (∀ i ∈ items, ∀ id, idOf i = some id → id ∈ ids) ∧ items' = items.map fun i =>
        match idOf i with
        | none => i
        | some id => give (restrictionsIn found id) i := by
  unfold fill at h
  simp only at h
  split at h
  · exact .inl (Prod.mk.inj (Except.ok.inj h)).2.symm
  · rcases hrun : (Store.restrictionsOf (distinct (items.filterMap idOf)) template?).run s with
      ⟨e | found, s'⟩
    · rw [Action.run_bind_error hrun] at h
      cases h
    · rw [Action.run_bind_ok hrun] at h
      refine .inr ⟨_, found, by rw [hrun], fun i hi id hid => ?_,
        (Prod.mk.inj (Except.ok.inj h)).2.symm⟩
      exact mem_distinct (List.mem_filterMap.2 ⟨i, hi, hid⟩)

/-- An item keeps its locks when those of many are looked up, or it kept none and gets those found. -/
theorem kept_copies (marker : String) (before after : List Item) (s : Store) (i : Item) :
    i.Kept (Finds s i.migrationId)
      (i.among before ((copies marker (before ++ i :: after)).run s).1) := by
  rcases hrun : ((copies marker (before ++ i :: after)).run s).1 with e | ⟨n, items'⟩
  · exact .refl i
  rcases of_fill hrun with rfl | ⟨ids, found, hfound, hids, rfl⟩
  · rw [Item.among, List.getElem?_append_right (Nat.le_refl _), Nat.sub_self]
    exact .refl i
  · rw [Item.among, List.getElem?_map, List.getElem?_append_right (Nat.le_refl _), Nat.sub_self,
      List.getElem?_cons_zero, Option.map_some, Option.getD_some]
    cases hid : copyId? marker i with
    | none => exact .refl i
    | some id =>
      have hasked := hids i (List.mem_append_right _ List.mem_cons_self) id hid
      unfold copyId? at hid
      split at hid
      · cases hid
      · next hfree =>
        have hnone : i.childRestrictions = none := by
          rw [Bool.or_eq_true, not_or, Bool.not_eq_true, Bool.not_eq_true,
            Option.isSome_eq_false_iff, Option.isNone_iff_eq_none] at hfree
          exact hfree.2
        exact Item.Kept.withLocks (.refl i) hnone
          ⟨id, ids, found, (Option.filter_eq_some_iff.1 hid).1, hasked, hfound, rfl⟩

/-- Looking up the locks of blueprint content leaves those of copies. -/
theorem kept_masters (course : Uuid) (marker : String) (before after : List Item) (s : Store)
    (found : Restrictions → Prop) (i : Item) :
    i.Kept found (i.among before ((masters course marker (before ++ i :: after)).run s).1) := by
  have hsame : ∀ items', items' = before ++ i :: after → items'[before.length]? = some i := by
    rintro items' rfl
    rw [List.getElem?_append_right (Nat.le_refl _), Nat.sub_self]
    rfl
  rcases hrun : ((masters course marker (before ++ i :: after)).run s).1 with e | ⟨n, items'⟩
  · exact .refl i
  unfold masters at hrun
  rcases hfind : (Store.templateOf? course).run s with ⟨e | _ | t, s'⟩
  · rw [Action.run_bind_error hfind] at hrun
    cases hrun
  · rw [Action.run_bind_ok hfind] at hrun
    rw [Item.among, hsame _ (Prod.mk.inj (Except.ok.inj hrun)).2.symm]
    exact .refl i
  · rw [Action.run_bind_ok hfind] at hrun
    rcases of_fill hrun with hitems | ⟨ids, found, -, -, rfl⟩
    · rw [Item.among, hsame _ hitems]
      exact .refl i
    · rw [Item.among, List.getElem?_map, hsame _ rfl, Option.map_some, Option.getD_some]
      cases masterId? t marker i with
      | none => exact .refl i
      | some id => exact Item.Kept.congr (.refl i) rfl rfl rfl

end Preload

/-- One operation keeps the locks that are kept with an item, and keeps locks that it found if there were
none. -/
theorem ItemEvent.kept_act (b : Rulebook) (s : Store) (i : Item) (e : ItemEvent) :
    i.Kept (fun r => e.Finds s i.migrationId r) (e.act b s i) := by
  have hwork : ∀ {α : Type} {x : Work α} {c : Context}, Action.Keeps (Rulebook.Has c s i) x →
      Action.Triple (Rulebook.Working c s i) x (fun _ => Rulebook.Has c s i)
        (Rulebook.Has c s i) :=
    fun h => Action.Triple.mono h (fun _ hd => hd.kept) (fun _ _ hd => hd) fun _ hd => hd
  have hasked : ∀ {α : Type} {x : Work α} {c : Context}, Action.Keeps (Rulebook.Working c s i) x →
      Action.Triple (Rulebook.Working c s i) x (fun _ => Rulebook.Has c s i)
        (Rulebook.Has c s i) :=
    fun h => Action.Triple.mono h (fun _ hd => hd) (fun _ _ hd => hd.kept) fun _ hd => hd.kept
  cases e with
  | save c write => exact Work.kept_itemAfter (Rulebook.kept_save write)
  | ask c q => exact Work.kept_itemAfter (hasked (Rulebook.working_ask q))
  | summary c role =>
    exact Work.kept_itemAfter
      (hasked (Rulebook.keeps_summary_of_inForce Rulebook.kept_restrictionsInForce role))
  | reconcile c => exact Work.kept_itemAfter (hwork Rulebook.has_reconcile)
  | preview c => exact Work.kept_itemAfter (hwork Rulebook.has_keptCategories)
  | record c columns =>
    exact Action.keeps_iff.1 (Rulebook.keepsItem_recordChanges columns) ⟨s, i, [], []⟩ (.refl i)
  | tag c => exact Action.keeps_iff.1 Rulebook.keepsItem_tagCopy ⟨s, i, [], []⟩ (.refl i)
  | preload marker before after => exact Preload.kept_copies marker before after s i
  | preloadMasters course marker before after =>
    exact Preload.kept_masters course marker before after s _ i
  | assign column value =>
    obtain ⟨attributes, pending, hset⟩ := i.set_frame column value
    exact Item.Kept.congr (.refl i) (by rw [act, hset]) (by rw [act, hset]) (by rw [act, hset])
  | restore columns =>
    obtain ⟨attributes, pending, hset⟩ := Item.restore_frame columns i
    exact Item.Kept.congr (.refl i) (by rw [act, hset]) (by rw [act, hset]) (by rw [act, hset])
  | applied => exact Item.Kept.congr (.refl i) rfl rfl rfl

/-! ## Histories -/

namespace Item

variable {b : Rulebook}

/-- Over a history an item keeps its key and migration identifier, and the locks it once kept. -/
theorem after_kept (history : List Moment) (i : Item) : i.Kept (fun _ => True) (i.after b history) := by
  induction history generalizing i with
  | nil => exact .refl i
  | cons moment history ih =>
    have hact := moment.event.kept_act b moment.store i
    have hrest := ih (moment.event.act b moment.store i)
    exact ⟨hrest.key.trans hact.key, hrest.migrationId.trans hact.migrationId,
      fun r hr => hrest.old r (hact.old r hr), fun _ _ _ => trivial⟩

/-- The locks that an item keeps after a history it kept before, or the first operation that looked
some up kept them with it. -/
theorem kept_after (history : List Moment) (i : Item) :
    (i.after b history).childRestrictions = i.childRestrictions ∨
      i.childRestrictions = none ∧ ∃ before moment later r, history = before ++ moment :: later ∧
        (i.after b before).childRestrictions = none ∧
        moment.event.Finds moment.store i.migrationId r ∧
        (i.after b (before ++ [moment])).childRestrictions = some r ∧
        (i.after b history).childRestrictions = some r := by
  induction history generalizing i with
  | nil => exact .inl rfl
  | cons moment history ih =>
    have hact := moment.event.kept_act b moment.store i
    cases hkept : i.childRestrictions with
    | some r =>
      refine .inl ?_
      exact (after_kept history (moment.event.act b moment.store i)).old r (hact.old r hkept)
    | none =>
      cases hnext : (moment.event.act b moment.store i).childRestrictions with
      | some r =>
        -- this is the first operation that looked some up
        refine .inr ⟨rfl, [], moment, history, r, rfl, hkept, hact.new hkept r hnext, hnext, ?_⟩
        exact (after_kept history (moment.event.act b moment.store i)).old r hnext
      | none =>
        rcases ih (moment.event.act b moment.store i) with hsame | ⟨-, before, first, later, r,
          rfl, hbefore, hfinds, hfirst, hafter⟩
        · exact .inl (hsame.trans hnext)
        · rw [hact.migrationId] at hfinds
          exact .inr ⟨rfl, moment :: before, first, later, r, rfl, hbefore, hfinds, hfirst, hafter⟩

end Item

/-! ## Imports -/

/-- The item as it is freshly loaded, with no locks kept. -/
def Item.fresh (i : Item) : Item := { i with childRestrictions := none }

/-- The desk with its item freshly loaded. -/
def Desk.fresh (d : Desk) : Desk := { d with item := d.item.fresh }

/-- Two runs answer the same and leave the same, apart from the locks that are kept with the item. -/
structure SameOutcome {α : Type} (x y : Result α × Desk) : Prop where
  answer : x.1 = y.1
  desk : x.2.fresh = y.2.fresh

/-- An import by a migration decides about an item by the given locks: they are in force, and
reconciling the item and previewing that do what they do for the item freshly loaded in any import into
the same course that holds these locks for it. -/
structure Migration.DecidesBy (b : Rulebook) (m : Migration) (i : Item) (r : Restrictions) : Prop where
  inForce : ∀ c d, c.migration = some m → d.item = i →
    (Rulebook.restrictionsInForce c).run d = (.ok r, d.withLocks r)
  reconciles : ∀ c d c' m', c.migration = some m → d.item = i → c'.migration = some m' →
    m'.subscription = m.subscription → (i.migrationId.bind m'.find?).getD .none = r →
      SameOutcome ((b.reconcile c).run d) ((b.reconcile c').run d.fresh)
  previews : ∀ c d c' m', c.migration = some m → d.item = i → c'.migration = some m' →
    (i.migrationId.bind m'.find?).getD .none = r →
      SameOutcome ((b.keptCategories c).run d) ((b.keptCategories c').run d.fresh)

namespace Rulebook

variable {b : Rulebook} {c c' : Context} {m m' : Migration} {d : Desk}

/-- A reconciliation is told by the locks in force. -/
theorem reconcile_fresh (hc : c.migration = some m) (hc' : c'.migration = some m')
    (hsub : m'.subscription = m.subscription) (hlocks : d.fresh.item.locksIn m' = d.item.locksIn m) :
    SameOutcome ((b.reconcile c).run d) ((b.reconcile c').run d.fresh) := by
  cases hcopy : b.isCopy d.item with
  | false =>
    rw [run_reconcile_of_idle (.inr hcopy), run_reconcile_of_idle (d := d.fresh) (.inr hcopy)]
    exact ⟨rfl, rfl⟩
  | true =>
    have hplan : ∀ tag, b.planIn m' tag d.fresh.item = b.planIn m tag d.item := by
      intro tag
      rw [planIn, hlocks]
      rfl
    rw [run_reconcile hc hcopy, run_reconcile (d := d.fresh) hc' hcopy, hlocks, hsub]
    simp only [hplan]
    have hfind : (Store.findOrCreateChildTag m.subscription.id d.fresh.item.key
        d.fresh.item.migrationId).run d.fresh.store =
          (Store.findOrCreateChildTag m.subscription.id d.item.key d.item.migrationId).run d.store := rfl
    rw [hfind]
    rcases (Store.findOrCreateChildTag m.subscription.id d.item.key d.item.migrationId).run d.store with
      ⟨e | tag, s⟩
    · exact ⟨rfl, rfl⟩
    · simp only
      cases tag.changes.isEmpty with
      | true => exact ⟨rfl, rfl⟩
      | false =>
        simp only [Bool.false_eq_true, if_false]
        rcases (forget tag (b.planIn m tag d.item)).run s with ⟨e | _, s'⟩
        · exact ⟨rfl, rfl⟩
        · exact ⟨rfl, rfl⟩

/-- An import does not preview what is no copy. -/
theorem run_keptCategories_of_idle (hcopy : b.isCopy d.item = false) :
    (b.keptCategories c).run d = (.ok [], d) := by
  rw [keptCategories, Action.run_bind_ok (Work.run_item d)]
  simp only [hcopy, Bool.not_false, Bool.or_true, if_true]
  rfl

/-- So is its preview. -/
theorem keptCategories_fresh (hc : c.migration = some m) (hc' : c'.migration = some m')
    (hlocks : d.fresh.item.locksIn m' = d.item.locksIn m) :
    SameOutcome ((b.keptCategories c).run d) ((b.keptCategories c').run d.fresh) := by
  cases hcopy : b.isCopy d.item with
  | false =>
    rw [run_keptCategories_of_idle hcopy, run_keptCategories_of_idle (d := d.fresh) hcopy]
    exact ⟨rfl, rfl⟩
  | true =>
    rw [run_keptCategories hc hcopy, run_keptCategories (d := d.fresh) hc' hcopy, hlocks]
    have hseen : d.fresh.store.seen.childTag? d.fresh.item.key =
        d.store.seen.childTag? d.item.key := rfl
    rw [hseen]
    rcases d.store.seen.childTag? d.item.key with e | _ | tag
    · exact ⟨rfl, rfl⟩
    · exact ⟨rfl, rfl⟩
    · simp only
      cases tag.changes.isEmpty with
      | true => exact ⟨rfl, rfl⟩
      | false => exact ⟨rfl, rfl⟩

/-- An import decides about an item by its locks in force. -/
theorem decidesBy_locksIn (b : Rulebook) (m : Migration) (i : Item) :
    m.DecidesBy b i (i.locksIn m) := by
  refine ⟨?_, ?_, ?_⟩
  · rintro c d hc rfl
    exact run_restrictionsInForce_import hc
  · rintro c d c' m' hc rfl hc' hsub hlocks
    exact reconcile_fresh hc hc' hsub hlocks
  · rintro c d c' m' hc rfl hc' hlocks
    exact keptCategories_fresh hc hc' hlocks

end Rulebook

/-- Whatever was done to an item before, an import decides by the locks that are kept with it, and if
none are by those that its migration holds for it. The locks that are kept were kept from the start, or
are those that the first operation to look some up has found. -/
theorem import_decides (b : Rulebook) (i : Item) (history : List Moment) (m : Migration) :
    ((i.after b history).childRestrictions = none →
      m.DecidesBy b (i.after b history) ((i.migrationId.bind m.find?).getD .none)) ∧
    (∀ r, (i.after b history).childRestrictions = some r → m.DecidesBy b (i.after b history) r) ∧
    ((i.after b history).childRestrictions = i.childRestrictions ∨
      i.childRestrictions = none ∧ ∃ before moment later r, history = before ++ moment :: later ∧
        (i.after b before).childRestrictions = none ∧
        moment.event.Finds moment.store i.migrationId r ∧
        (i.after b (before ++ [moment])).childRestrictions = some r ∧
        (i.after b history).childRestrictions = some r) := by
  have hdecides := Rulebook.decidesBy_locksIn b m (i.after b history)
  refine ⟨fun hnone => ?_, fun r hr => ?_, Item.kept_after history i⟩
  · rw [Item.locksIn, hnone, (Item.after_kept history i).migrationId] at hdecides
    exact hdecides
  · rw [Item.locksIn, hr] at hdecides
    exact hdecides

namespace Sample

/-- The copy, after it was asked in a store without master tags whether its content is restricted. -/
def asked : List Moment := [⟨store [], .ask .user (.restricted (.only (.only .content)))⟩]

/-- The question leaves no locks with the copy, and an import that holds some decides by none. -/
theorem import_decides_asked :
    (edited.after rulebook asked).childRestrictions = some .none ∧
    (importUnder (.only .content)).DecidesBy rulebook (edited.after rulebook asked) .none := by
  have hkept : (edited.after rulebook asked).childRestrictions = some .none := rfl
  exact ⟨hkept, (import_decides rulebook edited asked _).2.1 .none hkept⟩

/-- So it does not decide by its own migration. -/
theorem not_decides_by_own_migration :
    ¬ ∀ (b : Rulebook) (i : Item) (history : List Moment) (c : Context) (m : Migration) (s : Store),
      b.isCopy i = true → i.childRestrictions = none → c.migration = some m →
      ((Rulebook.restrictionsInForce c).run ⟨s, i.after b history, [], []⟩).1 =
        .ok ((i.migrationId.bind m.find?).getD .none) := by
  intro h
  have hlocks := h rulebook edited asked (.importing (importUnder (.only .content)))
    (importUnder (.only .content)) (store []) rfl rfl rfl
  have hnone : ((Rulebook.restrictionsInForce (.importing (importUnder (.only .content)))).run
    ⟨store [], edited.after rulebook asked, [], []⟩).1 = .ok .none := by rfl
  rw [hnone] at hlocks
  exact absurd (Except.ok.inj hlocks) (by decide)

end Sample

end CourseBlueprint
