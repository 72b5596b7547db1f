import CourseBlueprint.Proofs.Preload

/-!
# Ways to the locks of an item

The locks of a copy are looked up when they are first asked for, looked up for many items beforehand, or
known to an import. What is asked about them is answered from the locks in force alone
(`LockQuery.run_ask`), and each way finds the same locks in force: those that are held for the item
(`lookups_agree`).
-/

namespace CourseBlueprint

/-! ## Locks in force -/

/-- The locks that a save goes by which is no import: those kept with the item, or else those that rows
hold for it. -/
def Item.locksFrom (i : Item) (rows : List MasterTag) : Restrictions :=
  i.childRestrictions.getD ((i.migrationId.map (MasterTag.locksUnder rows)).getD .none)

theorem Item.locksFrom_withLocks (i : Item) (rows : List MasterTag) :
    (i.withLocks (i.locksFrom rows)).locksFrom rows = i.locksFrom rows := rfl

/-- Keeping locks with an item does not change what assignments make of it. -/
theorem Item.setAll_withLocks (assignments : List Assignment) (i : Item) (r : Restrictions) :
    (i.withLocks r).setAll assignments = (i.setAll assignments).withLocks r :=
  setAll_comm (f := fun i => i.withLocks r) (fun _ _ _ => rfl) assignments i

theorem Item.locksFrom_setAll (assignments : List Assignment) (i : Item) (rows : List MasterTag) :
    (i.setAll assignments).locksFrom rows = i.locksFrom rows := by
  obtain ⟨attributes, pending, hset⟩ := i.setAll_frame assignments
  rw [hset]
  rfl

namespace Rulebook

variable {c : Context} {d : Desk} {rows : List MasterTag}

/-- The locks in force are looked up once, and kept with the item. -/
theorem run_restrictionsInForce_of_seen (hc : c.migration = none)
    (hrows : d.store.seen.masterTags = .ok rows) :
    ∃ s, d.store.Alike s ∧ (restrictionsInForce c).run d =
      (.ok (d.item.locksFrom rows), { d with store := s }.withLocks (d.item.locksFrom rows)) := by
  cases hkept : d.item.childRestrictions with
  | some r =>
    have hlocks : d.item.locksFrom rows = r := by rw [Item.locksFrom, hkept]; rfl
    refine ⟨d.store, .refl _, ?_⟩
    rw [run_restrictionsInForce_of_kept hkept, hlocks]
    show _ = (_, d.withLocks r)
    rw [Desk.withLocks_of_eq hkept]
  | none =>
    cases hid : d.item.migrationId with
    | none =>
      have hlocks : d.item.locksFrom rows = .none := by rw [Item.locksFrom, hkept, hid]; rfl
      refine ⟨d.store, .refl _, ?_⟩
      rw [restrictionsInForce, Action.run_bind_ok (Work.run_item d), hlocks]
      simp only [hkept, hid]
      rfl
    | some id =>
      have hlocks : d.item.locksFrom rows = MasterTag.locksUnder rows id := by
        rw [Item.locksFrom, hkept, hid]; rfl
      rw [hlocks]
      exact run_restrictionsInForce_user hc hkept hid hrows

/-- What a child course is told of a copy goes by the locks in force. -/
theorem run_summary_child {b : Rulebook} {r : Restrictions} {d' : Desk} (hcopy : b.isCopy d.item = true)
    (h : (restrictionsInForce c).run d = (.ok r, d')) (hitem : d'.item = d.item.withLocks r) :
    (b.summary c .child).run d =
      (.ok (.child (r.restrict (b.schemaOf d.item) .any) r), d') := by
  have hkept : d'.item.childRestrictions = some r := by
    rw [hitem]
    rfl
  rw [summary, Action.run_bind_ok (Work.run_item d)]
  simp only [hcopy, Bool.not_true, Bool.false_eq_true, if_false]
  rw [Action.run_bind_ok (run_isRestricted hcopy h .any),
    Action.run_bind_ok (run_restrictionsInForce_of_kept hkept)]
  rfl

end Rulebook

/-! ## Questions -/

/-- What can be asked about the locks of an item. -/
inductive LockQuery where
  /-- Which locks are in force. -/
  | inForce
  /-- Whether editing is restricted in a scope. -/
  | restricted (scope : Scope)
  /-- Whether the pending changes may be saved. -/
  | check
  /-- What a child course is told. -/
  | summary
deriving DecidableEq

/-- What is answered. -/
inductive LockAnswer where
  | inForce (r : Restrictions)
  | restricted (yes : Bool)
  | check (result : Check ⊕ Rejection)
  | summary (s : Summary)
deriving DecidableEq

namespace LockQuery

/-- Asking a question about the item at work. -/
def ask (b : Rulebook) (c : Context) : LockQuery → Work LockAnswer
  | inForce => LockAnswer.inForce <$> Rulebook.restrictionsInForce c
  | restricted scope => LockAnswer.restricted <$> b.isRestricted c scope
  | check => LockAnswer.check <$> b.check c
  | summary => LockAnswer.summary <$> b.summary c .child

/-- The answer by the locks in force. -/
def answer (b : Rulebook) (c : Context) (i : Item) (r : Restrictions) : LockQuery → LockAnswer
  | inForce => .inForce r
  | restricted scope => .restricted (b.isCopy i && r.restrict (b.schemaOf i) scope)
  | check =>
    .check (if i.isNew || b.skips c i || b.settings.exempt i.key.kind then .inl .unrestricted
      else Rulebook.checkOf (Rulebook.lockedAmong r i (b.schemaOf i).entries []))
  | summary =>
    .summary (if b.isCopy i then Summary.child (r.restrict (b.schemaOf i) .any) r else Summary.none)

/-- The answers to several questions about an item, asked one after the other. -/
def answers (b : Rulebook) (c : Context) (i : Item) (qs : List LockQuery) (s : Store) :
    Result (List LockAnswer) :=
  ((qs.mapM (ask b c)).run ⟨s, i, [], []⟩).1

end LockQuery

/-- A desk with an item with which the locks that rows hold for it may be kept by now. -/
structure Desk.Knows (rows : List MasterTag) (i : Item) (d : Desk) : Prop where
  shown : d.store.seen.masterTags = .ok rows
  item : d.item = i ∨ d.item = i.withLocks (i.locksFrom rows)

namespace LockQuery

variable {b : Rulebook} {c : Context} {rows : List MasterTag} {i : Item} {d : Desk}

/-- Asking for the locks in force answers those that are held for the item, whether they are kept with
it or not. -/
theorem run_inForce (hc : c.migration = none) (hd : d.Knows rows i) :
    ∃ d', (Rulebook.restrictionsInForce c).run d = (.ok (i.locksFrom rows), d') ∧
      d'.item = d.item.withLocks (i.locksFrom rows) ∧ d'.Knows rows i := by
  obtain ⟨s, halike, hrun⟩ := Rulebook.run_restrictionsInForce_of_seen hc hd.shown
  have hlocks : d.item.locksFrom rows = i.locksFrom rows := by
    rcases hd.item with hitem | hitem
    · rw [hitem]
    · rw [hitem, Item.locksFrom_withLocks]
  rw [hlocks] at hrun
  refine ⟨_, hrun, rfl, ?_, .inr ?_⟩
  · rw [← hd.shown, ← halike.seen]
    rfl
  · show d.item.withLocks (i.locksFrom rows) = _
    rcases hd.item with hitem | hitem
    · rw [hitem]
    · rw [hitem]
      rfl

/-- Keeping the locks with an item changes no answer. -/
theorem answer_eq (hd : d.Knows rows i) (r : Restrictions) (q : LockQuery) :
    q.answer b c d.item r = q.answer b c i r := by
  rcases hd.item with hitem | hitem
  · rw [hitem]
  · rw [hitem]
    cases q with
    | inForce => rfl
    | restricted scope => rfl
    | check => rfl
    | summary => rfl

/-- Every question is answered from the locks that are held for the item. -/
theorem run_ask (hc : c.migration = none) (hd : d.Knows rows i) (q : LockQuery) :
    ∃ d', (q.ask b c).run d = (.ok (q.answer b c i (i.locksFrom rows)), d') ∧ d'.Knows rows i := by
  obtain ⟨d', hrun, hitem, hd'⟩ := run_inForce hc hd
  rw [← answer_eq hd]
  cases q with
  | inForce =>
    refine ⟨d', ?_, hd'⟩
    rw [ask, Action.run_map, hrun]
    rfl
  | restricted scope =>
    cases hcopy : b.isCopy d.item with
    | true =>
      refine ⟨d', ?_, hd'⟩
      rw [ask, Action.run_map, Rulebook.run_isRestricted hcopy hrun scope, answer, hcopy]
      rfl
    | false =>
      refine ⟨d, ?_, hd⟩
      rw [ask, Action.run_map, Rulebook.isRestricted, Action.run_bind_ok (Work.run_item d), answer]
      simp only [hcopy]
      rfl
  | check =>
    cases hfree : d.item.isNew || b.skips c d.item || b.settings.exempt d.item.key.kind with
    | true =>
      refine ⟨d, ?_, hd⟩
      rw [ask, Action.run_map, Rulebook.run_check_of_unrestricted hfree, answer, hfree]
      rfl
    | false =>
      obtain ⟨d'', hends, hchecked⟩ := Rulebook.run_check hfree hrun hitem
      refine ⟨d'', ?_, ?_⟩
      · rw [ask, Action.run_map, hchecked, answer, hfree]
        rfl
      · rcases hends with rfl | rfl
        · exact hd
        · exact hd'
  | summary =>
    cases hcopy : b.isCopy d.item with
    | true =>
      refine ⟨d', ?_, hd'⟩
      rw [ask, Action.run_map, Rulebook.run_summary_child hcopy hrun hitem, answer, hcopy]
      rfl
    | false =>
      refine ⟨d, ?_, hd⟩
      rw [ask, Action.run_map, Rulebook.summary, Action.run_bind_ok (Work.run_item d), answer]
      simp only [hcopy]
      rfl

theorem run_askAll (hc : c.migration = none) (hd : d.Knows rows i) (qs : List LockQuery) :
    ∃ d', (qs.mapM (ask b c)).run d = (.ok (qs.map (answer b c i (i.locksFrom rows))), d') := by
  induction qs generalizing d with
  | nil => exact ⟨d, rfl⟩
  | cons q qs ih =>
    obtain ⟨d₁, hfirst, hd₁⟩ := run_ask hc hd q
    obtain ⟨d₂, hrest⟩ := ih hd₁
    refine ⟨d₂, ?_⟩
    rw [List.mapM_cons, Action.run_bind_ok hfirst, Action.run_bind_ok hrest]
    rfl

end LockQuery

/-! ## Stores -/

/-- A store that was led by operations from one without rows. Writes in memory may have been refused in
between. -/
inductive Store.Reached : Store → Prop
  | empty {s : Store} (hclock : s.supply.ShowsDates) (hempty : s.stored = .of .empty) : Reached s
  | operation {s : Store} {o : Operation} (hs : Reached s) (ho : o.IsDated) : Reached (o.act.run s).2
  | refusingWrites {s : Store} (hs : Reached s) (on : Bool) : Reached (s.refusingWrites on)

/-- What an operation leaves has evolved from what it found. -/
theorem Operation.evolves_act {s : Store} {o : Operation} (hclock : s.supply.ShowsDates)
    (ho : o.IsDated) : s.Evolves (o.act.run s).2 := by
  have hlook : ∀ {α : Type} {x : Action Store α}, Action.Keeps s.Alike x → s.Evolves (x.run s).2 :=
    fun hx => (Action.keeps_iff.1 hx s (.refl s)).evolves
  have hwrite : ∀ {α : Type} {x : Action Store α}, Action.Keeps s.Evolves x → s.Evolves (x.run s).2 :=
    fun hx => Action.keeps_iff.1 hx s (.refl s)
  have hkept : Store.KeptByWriting s.Evolves := Store.keptByWriting_evolves hclock
  cases o with
  | templateOf course => exact hlook (Store.keeps_templateOf? course)
  | template id => exact hlook (Store.keeps_template? id)
  | findOrCreateTemplate course => exact hwrite (hkept.findOrCreateTemplate course)
  | subscription id => exact hlook (Store.keeps_subscription? id)
  | findOrCreateSubscription templateId child =>
    exact hwrite (hkept.findOrCreateSubscription templateId child)
  | masterTag migrationId => exact hlook (Store.alike_masterTag? migrationId)
  | restrictionsOf ids template? =>
    exact hlook (Store.KeptByLooking.restrictionsOf Store.alike_masterTagsWith ids template?)
  | saveMasterTag tag =>
    exact (Store.evolves_of_saveMasterTag (fun _ => ho)
      (Prod.eta ((Store.saveMasterTag tag).run s)).symm).1
  | masterTagsOf templateId => exact hlook (Store.keeps_masterTagsOf templateId)
  | childTag content => exact hlook (Store.keeps_childTag? content)
  | findOrCreateChildTag subscriptionId content migrationId =>
    exact hwrite (hkept.findOrCreateChildTag subscriptionId content migrationId)
  | mergeChanges content columns => exact hwrite (hkept.mergeChanges content columns)
  | removeChanges content columns => exact hwrite (hkept.removeChanges content columns)
  | childTagsOf subscriptionId => exact hlook (Store.keeps_childTagsOf subscriptionId)

/-- Rows with one master tag at most under each migration identifier. -/
def Stored.OneTagEach (st : Stored) : Prop :=
  ∃ rows, st.masterTags = .ok rows ∧ (rows.map MasterTag.migrationId).Nodup

theorem Stored.Step.oneTagEach {st st' : Stored} (h : st.Step st') (hst : st.OneTagEach) :
    st'.OneTagEach := by
  cases h with
  | template => exact hst
  | subscription => exact hst
  | masterTag hrows =>
    obtain ⟨rows', hrows', hnodup⟩ := hst
    rw [hrows] at hrows'
    obtain rfl := Except.ok.inj hrows'
    exact ⟨_, rfl, Tables.nodup_map_upsert hnodup⟩
  | childTag => exact hst
  | changes hset =>
    obtain ⟨-, -, -, -, rfl⟩ := hset
    exact hst

theorem Stored.Steps.oneTagEach {st st' : Stored} (h : st.Steps st') (hst : st.OneTagEach) :
    st'.OneTagEach := by
  induction h with
  | refl => exact hst
  | tail _ hstep ih => exact hstep.oneTagEach ih

namespace Store

variable {s : Store}

theorem Reached.holds (h : s.Reached) : s.supply.ShowsDates ∧ s.stored.OneTagEach := by
  induction h with
  | empty hclock hempty =>
    refine ⟨hclock, [], ?_, List.nodup_nil⟩
    rw [hempty]
    rfl
  | operation hs ho ih =>
    have hevolves := Operation.evolves_act ih.1 ho
    exact ⟨hevolves.supply.showsDates ih.1, hevolves.steps.oneTagEach ih.2⟩
  | @refusingWrites s hs on ih =>
    have halike := s.alike_refusingWrites on
    exact ⟨halike.supply ▸ ih.1, halike.stored ▸ ih.2⟩

/-- It shows one master tag at most under each migration identifier. -/
theorem Reached.shows (h : s.Reached) : s.seen.OneTagEach := by
  unfold seen
  split
  · exact h.holds.2
  · exact ⟨[], rfl, List.nodup_nil⟩

end Store

/-! ## Three ways -/

/-- Whether the locks of an item are looked up when those of many are. -/
def Rulebook.qualifies (b : Rulebook) (i : Item) : Bool :=
  !i.key.kind.skipsPreload && i.childRestrictions.isNone && b.isCopy i

namespace Preload

variable {b : Rulebook} {i : Item} {items : List Item} {rows : List MasterTag}

theorem isSome_copyId? : (copyId? b.settings.marker i).isSome = b.qualifies i := by
  unfold copyId? Rulebook.qualifies
  cases i.key.kind.skipsPreload with
  | true => rfl
  | false =>
    cases i.childRestrictions with
    | some r => rfl
    | none => exact Option.isSome_filter

theorem length_copyIds : (items.filterMap (copyId? b.settings.marker)).length =
    (items.filter b.qualifies).length := by
  rw [List.length_filterMap_eq_countP, ← List.countP_eq_length_filter]
  exact congrArg (items.countP ·) (funext fun i => isSome_copyId?)

theorem isEmpty_copyIds : (items.filterMap (copyId? b.settings.marker)).isEmpty =
    (items.filter b.qualifies).isEmpty := by
  rw [Bool.eq_iff_iff, List.isEmpty_iff_length_eq_zero, List.isEmpty_iff_length_eq_zero, length_copyIds]

/-- An item that qualifies is given the locks that are held for it. -/
theorem filled_copy : filled (copyId? b.settings.marker) none
      (fun r i => { i with childRestrictions := some r }) rows i =
    if b.qualifies i then i.withLocks (i.locksFrom rows) else i := by
  rw [← isSome_copyId?]
  unfold filled
  cases hid : copyId? b.settings.marker i with
  | none => rfl
  | some id =>
    unfold copyId? at hid
    split at hid
    · cases hid
    · next hfree =>
      obtain ⟨-, hnone⟩ : i.key.kind.skipsPreload = false ∧ i.childRestrictions = none := by
        simpa using hfree
      have hmigration : i.migrationId = some id := (Option.filter_eq_some_iff.1 hid).1
      rw [Item.locksFrom, hnone, hmigration]
      simp only [Option.all_none, List.filter_true, Option.isSome_some, if_true]
      rfl

/-- Looking up the locks of copies answers how many qualify and gives these their locks. -/
theorem run_copies {s : Store} (hrows : s.seen.masterTags = .ok rows)
    (hnodup : (rows.map MasterTag.migrationId).Nodup) (b : Rulebook) (items : List Item) :
    (copies b.settings.marker items).run s =
      (.ok ((items.filter b.qualifies).length,
          items.map fun i => if b.qualifies i then i.withLocks (i.locksFrom rows) else i),
        if (items.filter b.qualifies).isEmpty then s
        else s.noting (distinct (items.filterMap (copyId? b.settings.marker)))) := by
  rw [copies, run_fill hrows hnodup, length_copyIds, isEmpty_copyIds]
  rw [show filled (copyId? b.settings.marker) none _ rows = _ from funext fun i => filled_copy]

end Preload

namespace LockQuery

variable {b : Rulebook} {c : Context} {rows : List MasterTag} {i : Item} {s : Store}

/-- Questions about an item, also after assignments, are answered from the locks that are held for it,
whether they were looked up before or not. -/
theorem answers_eq (hc : c.migration = none) (hrows : s.seen.masterTags = .ok rows) (looked : Bool)
    (assignments : List Assignment) (qs : List LockQuery) :
    answers b c ((if looked then i.withLocks (i.locksFrom rows) else i).setAll assignments) qs s =
      .ok (qs.map (answer b c (i.setAll assignments) (i.locksFrom rows))) := by
  have hd : Desk.Knows rows (i.setAll assignments)
      ⟨s, (if looked then i.withLocks (i.locksFrom rows) else i).setAll assignments, [], []⟩ := by
    refine ⟨hrows, ?_⟩
    cases looked with
    | true =>
      refine .inr ?_
      rw [Item.locksFrom_setAll]
      exact Item.setAll_withLocks assignments i _
    | false => exact .inl rfl
  obtain ⟨d', hrun⟩ := run_askAll (b := b) hc hd qs
  rw [answers, hrun, Item.locksFrom_setAll]

end LockQuery

/-- A migration for a subscription knows the locks that are held under an identifier, if they are those of
content in its template. -/
theorem Command.find?_of_load_of_template {s : Store} {rows : List MasterTag} {sub : Subscription}
    {id : String} (hrows : s.seen.masterTags = .ok rows)
    (hnodup : (rows.map MasterTag.migrationId).Nodup)
    (hours : ∀ t ∈ rows, t.migrationId = id → t.templateId = sub.templateId) :
    ∃ m, (Migration.load sub).run s = (.ok m, s) ∧
      (m.find? id).getD .none = MasterTag.locksUnder rows id := by
  rw [run_load, hrows]
  refine ⟨_, rfl, ?_⟩
  have hperm := List.mergeSort_perm (rows.filter fun t => t.templateId = sub.templateId)
    fun t u => decide (t.migrationId ≤ u.migrationId)
  refine Preload.restrictionsIn_eq_locksUnder hnodup (fun t ht => ?_) fun t ht hid => ?_
  · exact (List.mem_filter.1 (hperm.mem_iff.1 ht)).1
  · exact hperm.mem_iff.2 (List.mem_filter.2 ⟨ht, decide_eq_true (hours t ht hid)⟩)

/-- So it goes by the locks that are held for an item with none kept. -/
theorem Command.locksIn_of_load {s : Store} {rows : List MasterTag} {sub : Subscription} {i : Item}
    (hrows : s.seen.masterTags = .ok rows) (hnodup : (rows.map MasterTag.migrationId).Nodup)
    (hnone : i.childRestrictions = none)
    (hours : ∀ id tag, i.migrationId = some id → ((Store.masterTag? id).run s).1 = .ok (some tag) →
      tag.templateId = sub.templateId) :
    ∃ m, (Migration.load sub).run s = (.ok m, s) ∧ i.locksIn m = i.locksFrom rows := by
  unfold Item.locksIn Item.locksFrom
  rw [hnone]
  cases hid : i.migrationId with
  | none =>
    rw [run_load, hrows]
    exact ⟨_, rfl, rfl⟩
  | some id =>
    refine find?_of_load_of_template hrows hnodup fun t ht hkey => hours id t hid ?_
    obtain ⟨s', -, hrun⟩ := Store.run_masterTag? id s
    rw [hrun, hrows, Except.map, (Tables.find?_eq_some_iff hnodup).2 ⟨ht, hkey⟩]

/-- In a store that operations have led to, the locks of items are the same whichever way they are
obtained. To look up those of many items gives each that qualifies the locks held for it and leaves the
others; it changes no later answer about any of them, and takes one look-up of master tags if any item
qualifies and none otherwise. An import finds what a look-up finds for an item with no locks kept, if its
master tag, if any, belongs to the template that is followed. -/
theorem lookups_agree (b : Rulebook) {s : Store} (hs : s.Reached) (items : List Item) :
    (∃ items' s', (Preload.copies b.settings.marker items).run s =
        (.ok ((items.filter b.qualifies).length, items'), s') ∧
      (∃ rows, s.seen.masterTags = .ok rows ∧
        items' = items.map fun i => if b.qualifies i then i.withLocks (i.locksFrom rows) else i) ∧
      List.Forall₂ (fun i i' => ∀ c : Context, c.migration = none → ∀ assignments qs s₁ s₂,
        s.Alike s₁ → s'.Alike s₂ → ∃ as,
          LockQuery.answers b c (i.setAll assignments) qs s₁ = .ok as ∧
          LockQuery.answers b c (i'.setAll assignments) qs s₂ = .ok as) items items' ∧
      (items.filter b.qualifies = [] →
        Preload.copies b.settings.marker items = pure (0, items) ∧ s' = s) ∧
      (items.filter b.qualifies ≠ [] → ∃ ids f,
        Preload.copies b.settings.marker items = f <$> Store.masterTagsWith ids ∧
          s' = s.noting ids)) ∧
    ∀ (i : Item) (sub : Subscription), i.childRestrictions = none →
      (∀ id tag, i.migrationId = some id → ((Store.masterTag? id).run s).1 = .ok (some tag) →
        tag.templateId = sub.templateId) →
      ∃ m r, (Migration.load sub).run s = (.ok m, s) ∧
        LockQuery.answers b (.importing m) i [.inForce] s = .ok [.inForce r] ∧
        ∀ c : Context, c.migration = none →
          LockQuery.answers b c i [.inForce] s = .ok [.inForce r] := by
  obtain ⟨rows, hrows, hnodup⟩ := hs.shows
  have hlooked : ∀ (none : Bool) ids, s.Alike (if none then s else s.noting ids) := by
    intro none ids
    cases none with
    | true => exact .refl s
    | false => exact s.alike_noting ids
  refine ⟨⟨_, _, Preload.run_copies hrows hnodup b items, ⟨rows, hrows, rfl⟩, ?_, ?_, ?_⟩, ?_⟩
  · refine List.forall₂_map_right_iff.2 (List.forall₂_same.2 fun i _ => ?_)
    intro c hc assignments qs s₁ s₂ hs₁ hs₂
    have hrows₁ : s₁.seen.masterTags = .ok rows := by rw [hs₁.seen, hrows]
    have hrows₂ : s₂.seen.masterTags = .ok rows := by rw [((hlooked _ _).trans hs₂).seen, hrows]
    exact ⟨_, LockQuery.answers_eq hc hrows₁ false assignments qs,
      LockQuery.answers_eq hc hrows₂ (b.qualifies i) assignments qs⟩
  · intro hnone
    have hempty : (items.filterMap (Preload.copyId? b.settings.marker)).isEmpty = true := by
      rw [Preload.isEmpty_copyIds, hnone]
      rfl
    exact ⟨Preload.fill_of_isEmpty hempty, by rw [hnone]; rfl⟩
  · intro hsome
    have hasked : (items.filter b.qualifies).isEmpty = false := by simpa using hsome
    obtain ⟨f, hf⟩ := Preload.fill_eq_map none (fun r i => { i with childRestrictions := some r })
      (Preload.isEmpty_copyIds.trans hasked)
    exact ⟨_, f, hf, by rw [hasked]; rfl⟩
  · intro i sub hnone hours
    obtain ⟨m, hload, hknown⟩ := Command.locksIn_of_load hrows hnodup hnone hours
    refine ⟨m, i.locksFrom rows, hload, ?_, fun c hc => LockQuery.answers_eq hc hrows false [] _⟩
    have himport := Rulebook.run_restrictionsInForce_import (c := .importing m) (d := ⟨s, i, [], []⟩) rfl
    rw [hknown] at himport
    rw [LockQuery.answers, List.mapM_cons, LockQuery.ask, Action.run_bind, Action.run_map, himport]
    rfl

namespace Sample

/-- The tag of a page with its body locked was saved. -/
def pageSaved : Store :=
  ((Operation.saveMasterTag (pageTag ⟨1⟩ migrationId)).act.run (.inMemory supply)).2

theorem reached_pageSaved : pageSaved.Reached :=
  .operation (.empty showsDates_supply rfl) ⟨showsDates_supply 0, showsDates_supply 0⟩

def pageCopy (id : Uuid) : Item :=
  { Item.persisted ⟨.wikiPage, id⟩ ∅ with migrationId := some migrationId }

/-- Two copies of the page, one that keeps other locks, a folder, and content of no blueprint. -/
def pageCopies : List Item :=
  [pageCopy ⟨5⟩, pageCopy ⟨6⟩, (pageCopy ⟨7⟩).withLocks .none,
    { pageCopy ⟨8⟩ with key := ⟨.folder, ⟨8⟩⟩ }, { pageCopy ⟨9⟩ with migrationId := some "page" }]

/-- The locks of the two copies are looked up at once and given to these, and an import finds them
too. -/
theorem lookups_agree_pageCopies :
    pageSaved.Reached ∧
    (∃ items' s', (Preload.copies rulebook.settings.marker pageCopies).run pageSaved =
        (.ok (2, items'), s') ∧
      items'.map Item.childRestrictions =
        [some (pageTag ⟨1⟩ migrationId).restrictions, some (pageTag ⟨1⟩ migrationId).restrictions,
          some .none, none, none] ∧
      List.Forall₂ (fun i i' => ∀ c : Context, c.migration = none → ∀ assignments qs s₁ s₂,
        pageSaved.Alike s₁ → s'.Alike s₂ → ∃ as,
          LockQuery.answers rulebook c (i.setAll assignments) qs s₁ = .ok as ∧
          LockQuery.answers rulebook c (i'.setAll assignments) qs s₂ = .ok as) pageCopies items' ∧
      ∃ ids f, Preload.copies rulebook.settings.marker pageCopies = f <$> Store.masterTagsWith ids ∧
        s' = pageSaved.noting ids) ∧
    ∃ m, (Migration.load subscription).run pageSaved = (.ok m, pageSaved) ∧
      LockQuery.answers rulebook (.importing m) (pageCopy ⟨5⟩) [.inForce] pageSaved =
        .ok [.inForce (Restrictions.none.set (.only .content) true)] := by
  obtain ⟨⟨items', s', hrun, ⟨rows, hrows, hgiven⟩, hsame, -, hone⟩, himport⟩ :=
    lookups_agree rulebook reached_pageSaved pageCopies
  obtain rfl : [pageTag ⟨1⟩ migrationId] = rows := Except.ok.inj hrows
  obtain ⟨m, r, hload, hknown, hfound⟩ := himport (pageCopy ⟨5⟩) subscription rfl (by
    rintro id tag hid hfind
    obtain rfl := Option.some.inj hid
    have htag : (Store.masterTag? migrationId).run pageSaved =
      (.ok (some (pageTag ⟨1⟩ migrationId)), pageSaved.noting [migrationId]) := by rfl
    rw [htag] at hfind
    rw [← Option.some.inj (Except.ok.inj hfind)]
    rfl)
  have hlocks : LockQuery.answers rulebook .user (pageCopy ⟨5⟩) [.inForce] pageSaved =
    .ok [.inForce (Restrictions.none.set (.only .content) true)] := by rfl
  rw [← hlocks, hfound .user rfl]
  exact ⟨reached_pageSaved, ⟨items', s', hrun, by rw [hgiven]; rfl, hsame, hone (by decide)⟩, m, hload,
    hknown⟩

end Sample

end CourseBlueprint
