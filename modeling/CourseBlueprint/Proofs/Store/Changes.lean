import CourseBlueprint.Proofs.Store.Evolution
import CourseBlueprint.Settings

/-!
# Changes of rows

`Stored.Change` lists the changes of rows that requests make, each with what was looked up before it
was made: a subscription follows a template that is held, a copy has a master tag, and so on. A
`Store.Move` makes one such change or none, and `Store.Moves` any number of them. A store is ready
(`Store.Ready`) if reading shows all that it holds, which every move keeps.
-/

namespace CourseBlueprint

/-! ## Rows that are held -/

namespace Stored

def HasTemplate (st : Stored) (t : Template) : Prop := ∃ rows, st.templates = .ok rows ∧ t ∈ rows

def HasSubscription (st : Stored) (sub : Subscription) : Prop :=
  ∃ rows, st.subscriptions = .ok rows ∧ sub ∈ rows

def HasMasterTag (st : Stored) (tag : MasterTag) : Prop :=
  ∃ rows, st.masterTags = .ok rows ∧ tag ∈ rows

/-- One change of the rows that are held, by the rules of a deployment. Only what is asked for gets a
master tag or a copy, and every template and subscription gets a new identifier. -/
inductive Change (b : Rulebook) (asked : ContentKey → Prop) (new : Uuid → Prop) (st : Stored) :
    Stored → Prop
  | template {rows : List Template} {t : Template} (hid : new t.id)
      (hrows : st.templates = .ok rows) (hnew : ∀ row ∈ rows, row.courseId ≠ t.courseId) :
      Change b asked new st { st with templates := .ok (rows ++ [t]) }
  | subscription {rows : List Subscription} {t : Template} {sub : Subscription} (hid : new sub.id)
      (ht : st.HasTemplate t) (hfollows : sub.templateId = t.id)
      (hother : sub.childCourseId ≠ t.courseId) (hrows : st.subscriptions = .ok rows)
      (hnew : ∀ row ∈ rows, row.samePairing sub = false) :
      Change b asked new st { st with subscriptions := .ok (rows ++ [sub]) }
  | masterTag {rows : List MasterTag} {t : Template} {tag : MasterTag} (ht : st.HasTemplate t)
      (htemplate : tag.templateId = t.id)
      (hid : tag.migrationId = t.migrationId b.settings.marker tag.content)
      (hkind : tag.content.kind.allowedInBlueprint = true) (hasked : asked tag.content)
      (hrows : st.masterTags = .ok rows) (hnew : ∀ row ∈ rows, row.migrationId ≠ tag.migrationId) :
      Change b asked new st { st with masterTags := .ok (rows ++ [tag]) }
  | locks {rows : List MasterTag} {tag : MasterTag} {r : Restrictions} {time : Timestamp}
      (hrows : st.masterTags = .ok rows)
      (htag : (rows.find? fun row => row.migrationId = tag.migrationId) = some tag) :
      Change b asked new st { st with
        masterTags := .ok (Tables.replaceFirst (fun row => row.migrationId = tag.migrationId)
          { tag with restrictions := r, updatedAt := time } rows) }
  | copy {rows : List ChildTag} {t : Template} {sub : Subscription} {master : ContentKey}
      {masterTag : MasterTag} {tag : ChildTag} (hsub : st.HasSubscription sub)
      (ht : st.HasTemplate t) (hfollows : t.id = sub.templateId) (hasked : asked master)
      (hmaster : st.HasMasterTag masterTag)
      (hmasterId : masterTag.migrationId = t.migrationId b.settings.marker master)
      (hid : tag.migrationId = some (t.migrationId b.settings.marker master))
      (hkind : tag.content.kind = master.kind) (hsubscription : tag.subscriptionId = sub.id)
      (hchanges : tag.changes = ∅) (hrows : st.childTags = .ok rows)
      (hnew : ∀ row ∈ rows, row.content ≠ tag.content)
      (honce : ∀ row ∈ rows, row.subscriptionId = sub.id → row.migrationId ≠ tag.migrationId) :
      Change b asked new st (st.withChildTags (rows ++ [tag]))
  | changes {tag : ChildTag} {changes : NameSet} {st' : Stored}
      (hgoverned : ∀ x ∈ changes,
        x ∈ tag.changes ∨ x ∈ (b.registry tag.content.kind).allColumns ∨ x = manuallyDeleted)
      (hset : st.SetsChanges tag changes st') : Change b asked new st st'

variable {b : Rulebook} {asked : ContentKey → Prop} {new : Uuid → Prop} {st st' : Stored}

/-- Templates stay. -/
theorem Change.hasTemplate (h : st.Change b asked new st') {t : Template} (ht : st.HasTemplate t) :
    st'.HasTemplate t := by
  cases h with
  | template hid hrows hnew =>
    obtain ⟨rows', hrows', hmem⟩ := ht
    rw [hrows] at hrows'
    obtain rfl := Except.ok.inj hrows'
    exact ⟨_, rfl, List.mem_append_left _ hmem⟩
  | subscription => exact ht
  | masterTag => exact ht
  | locks => exact ht
  | copy => exact ht
  | changes hgoverned hset =>
    obtain ⟨rows, time, -, -, rfl⟩ := hset
    exact ht

end Stored

/-- Whether an identifier was drawn between two states of a supply. -/
def Supply.Drew (p p' : Supply) (id : Uuid) : Prop :=
  ∃ i, p.idsUsed ≤ i ∧ i < p'.idsUsed ∧ p.ids i = id

namespace Store

variable {b : Rulebook} {asked : ContentKey → Prop} {α : Type} {s s' s'' s₀ : Store}

/-! ## Moves -/

/-- A store that has used more of its supply and whose rows are the same or have changed once. -/
structure Move (b : Rulebook) (asked : ContentKey → Prop) (s s' : Store) : Prop where
  supply : s.supply.Later s'.supply
  isOpen : s.isOpen = true → s'.isOpen = true
  rows : s'.stored = s.stored ∨
    s'.isOpen = true ∧ s.stored.Change b asked (s.supply.Drew s'.supply) s'.stored

/-- Any number of moves, one after the other. -/
inductive Moves (b : Rulebook) (asked : ContentKey → Prop) (s : Store) : Store → Prop
  | refl : Moves b asked s s
  | tail {s' s'' : Store} (hs : Moves b asked s s') (h : s'.Move b asked s'') : Moves b asked s s''

theorem Move.moves (h : s.Move b asked s') : s.Moves b asked s' := .tail .refl h

theorem Moves.trans (h : s.Moves b asked s') (h' : s'.Moves b asked s'') : s.Moves b asked s'' := by
  induction h' with
  | refl => exact h
  | tail _ hmove ih => exact .tail ih hmove

theorem Move.of_stored_eq (hsupply : s.supply.Later s'.supply)
    (hopen : s.isOpen = true → s'.isOpen = true) (hstored : s'.stored = s.stored) :
    s.Move b asked s' := ⟨hsupply, hopen, .inl hstored⟩

theorem Alike.move (h : s.Alike s') : s.Move b asked s' :=
  .of_stored_eq (.of_eq h.supply) (fun hopen => h.isOpen ▸ hopen) h.stored

theorem Moves.supply (h : s.Moves b asked s') : s.supply.Later s'.supply := by
  induction h with
  | refl => exact .refl _
  | tail _ hmove ih => exact ih.trans hmove.supply

theorem Moves.hasTemplate (h : s.Moves b asked s') {t : Template} (ht : s.stored.HasTemplate t) :
    s'.stored.HasTemplate t := by
  induction h with
  | refl => exact ht
  | tail _ hmove ih =>
    rcases hmove.rows with hstored | ⟨-, hchange⟩
    · rw [hstored]
      exact ih
    · exact hchange.hasTemplate ih

/-- A store whose clock shows dates and that shows all it holds. -/
structure Ready (s : Store) : Prop where
  clock : s.supply.ShowsDates
  shown : s.seen = s.stored

/-- A ready store that holds a tag can be opened. -/
theorem Ready.isOpen_of_held (h : s.Ready) {content : ContentKey} {tag : ChildTag}
    (htag : s.stored.childTag? content = .ok (some tag)) : s.isOpen = true :=
  (isOpen_of_seen (h.shown ▸ htag)).1

theorem Move.ready (h : s.Move b asked s') (hs : s.Ready) : s'.Ready := by
  refine ⟨h.supply.showsDates hs.clock, ?_⟩
  cases hopen' : s'.isOpen with
  | true => exact seen_of_isOpen hopen'
  | false =>
    -- a store that is not open has not been written to
    have hopen : s.isOpen = false := by
      cases hopen : s.isOpen with
      | false => rfl
      | true =>
        rw [h.isOpen hopen] at hopen'
        cases hopen'
    have hseen : s'.seen = s.seen := by
      unfold seen
      rw [hopen, hopen']
      rfl
    rcases h.rows with hstored | ⟨hopen'', -⟩
    · rw [hseen, hs.shown, hstored]
    · rw [hopen'] at hopen''
      cases hopen''

theorem Moves.ready (h : s.Moves b asked s') (hs : s.Ready) : s'.Ready := by
  induction h with
  | refl => exact hs
  | tail _ hmove ih => exact hmove.ready ih

/-- A store that shows a row is open. -/
theorem isOpen_of_shown {β : Type} {g : Stored → Result (List β)} {rows : List β} {row : β}
    (hempty : g (.of .empty) = .ok []) (hrows : g s.seen = .ok rows) (hrow : row ∈ rows) :
    s.isOpen = true := by
  cases hopen : s.isOpen with
  | true => rfl
  | false =>
    have hseen : s.seen = .of .empty := if_neg (by simp [hopen])
    rw [hseen, hempty] at hrows
    rw [← Except.ok.inj hrows] at hrow
    exact absurd hrow List.not_mem_nil

/-! ## Operations -/

theorem keeps_moves_of_alike {x : Action Store α} (h : ∀ s : Store, Action.Keeps s.Alike x) :
    Action.Keeps (s₀.Moves b asked) x :=
  Action.keeps_iff.2 fun s hs => .tail hs (Action.keeps_iff.1 (h s) s (.refl s)).move

theorem moves_masterTagsWith (ids : List String) :
    Action.Keeps (s₀.Moves b asked) (masterTagsWith ids) :=
  keeps_moves_of_alike fun _ => alike_masterTagsWith ids

/-- What leads every store that is ready along moves keeps any that was led along moves. -/
theorem keeps_moves_of_run (hready : s₀.Ready) {x : Action Store α}
    (h : ∀ s r s', s.Ready → x.run s = (r, s') → s.Moves b asked s') :
    Action.Keeps (s₀.Moves b asked) x :=
  Action.keeps_iff.2 fun s hs => hs.trans (h s _ _ (hs.ready hready) (Prod.eta (x.run s)).symm)

theorem run_templateOf? (course : Uuid) (s : Store) : (templateOf? course).run s =
    (s.seen.templates.map fun rows => rows.find? fun t => t.courseId = course, s) :=
  Action.run_read (run_templates s)

theorem run_template? (id : Uuid) (s : Store) : (template? id).run s =
    (s.seen.templates.map fun rows => rows.find? fun t => t.id = id, s) :=
  Action.run_read (run_templates s)

theorem run_subscription? (id : Uuid) (s : Store) : (subscription? id).run s =
    (s.seen.subscriptions.map fun rows => rows.find? fun sub => sub.id = id, s) :=
  Action.run_read (run_subscriptions s)

/-- Making a course a blueprint leaves the rows that there were, or has added a template of the course
under a new identifier. -/
theorem of_findOrCreateTemplate {course : Uuid} {r : Result Template} (hclock : s.supply.ShowsDates)
    (h : (findOrCreateTemplate course).run s = (r, s')) :
    s.supply.Later s'.supply ∧ (s.isOpen = true → s'.isOpen = true) ∧
      (s'.stored = s.stored ∨ s'.isOpen = true ∧ ∃ rows t, s.stored.templates = .ok rows ∧
        (∀ row ∈ rows, row.courseId ≠ course) ∧ t.courseId = course ∧
        s.supply.Drew s'.supply t.id ∧
        s'.stored = { s.stored with templates := .ok (rows ++ [t]) }) := by
  rw [findOrCreateTemplate, Action.run_bind, run_templateOf?] at h
  cases hfound : s.seen.templates.map fun rows => rows.find? fun t => t.courseId = course with
  | error e =>
    rw [hfound] at h
    obtain ⟨-, rfl⟩ := Prod.mk.inj h
    exact ⟨.refl _, id, .inl rfl⟩
  | ok found =>
    rw [hfound] at h
    cases found with
    | some t =>
      obtain ⟨-, rfl⟩ := Prod.mk.inj h
      exact ⟨.refl _, id, .inl rfl⟩
    | none =>
      simp only [Action.run_bind_ok (run_newId s), Action.run_bind_ok (run_now s.afterId)] at h
      have htime : (s.afterId.supply.times s.afterId.supply.timesUsed).IsDate := hclock _
      have hinserted := insertTemplate_performed (t := ⟨_, course, _⟩) htime h
      have hlater : s.supply.Later s'.supply := by
        rw [hinserted.supply]
        exact (later_afterId s).trans (later_afterTime _)
      refine ⟨hlater, hinserted.isOpen, ?_⟩
      rcases hinserted.of_insertUnless with hstored | ⟨hopen, rows, hrows, hnew, hstored⟩
      · exact .inl hstored
      · refine .inr ⟨hopen, rows, _, hrows, fun row hrow => of_decide_eq_false (hnew row hrow), rfl,
          ⟨s.supply.idsUsed, Nat.le_refl _, ?_, rfl⟩, hstored⟩
        rw [hinserted.supply]
        exact Nat.lt_succ_self _

theorem move_findOrCreateTemplate {course : Uuid} {r : Result Template} (hclock : s.supply.ShowsDates)
    (h : (findOrCreateTemplate course).run s = (r, s')) : s.Move b asked s' := by
  obtain ⟨hlater, hopen, hends⟩ := of_findOrCreateTemplate hclock h
  refine ⟨hlater, hopen, hends.imp_right ?_⟩
  rintro ⟨hopen', rows, t, hrows, hnew, rfl, hdrew, hstored⟩
  rw [hstored]
  exact ⟨hopen', .template hdrew hrows hnew⟩

/-- Letting a course follow a template leaves the rows that there were, or has added a subscription of
the pairing under a new identifier. -/
theorem of_findOrCreateSubscription {template child : Uuid} {r : Result Subscription}
    (h : (findOrCreateSubscription template child).run s = (r, s')) :
    s.supply.Later s'.supply ∧ (s.isOpen = true → s'.isOpen = true) ∧
      (s'.stored = s.stored ∨ s'.isOpen = true ∧ ∃ rows sub, s.stored.subscriptions = .ok rows ∧
        (∀ row ∈ rows, row.samePairing sub = false) ∧ sub.templateId = template ∧
        sub.childCourseId = child ∧ s.supply.Drew s'.supply sub.id ∧
        s'.stored = { s.stored with subscriptions := .ok (rows ++ [sub]) }) := by
  rw [findOrCreateSubscription, Action.run_bind_ok (run_newId s), Action.run_bind,
    run_subscriptions] at h
  cases hrows : s.afterId.seen.subscriptions with
  | error e =>
    rw [hrows] at h
    obtain ⟨-, rfl⟩ := Prod.mk.inj h
    exact ⟨later_afterId s, id, .inl rfl⟩
  | ok rows =>
    rw [hrows] at h
    simp only at h
    split at h
    · obtain ⟨-, rfl⟩ := Prod.mk.inj h
      exact ⟨later_afterId s, id, .inl rfl⟩
    · have hinserted := insertSubscription_performed h
      have hlater : s.supply.Later s'.supply := by
        rw [hinserted.supply]
        exact later_afterId s
      refine ⟨hlater, hinserted.isOpen, ?_⟩
      rcases hinserted.of_insertUnless with hstored | ⟨hopen, rows, hrows, hnew, hstored⟩
      · exact .inl hstored
      · refine .inr ⟨hopen, rows, _, hrows, hnew, rfl, rfl, ⟨s.supply.idsUsed, Nat.le_refl _, ?_, rfl⟩,
          hstored⟩
        rw [hinserted.supply]
        exact Nat.lt_succ_self _

theorem move_findOrCreateSubscription {t : Template} {child : Uuid} {r : Result Subscription}
    (ht : s.stored.HasTemplate t) (hother : child ≠ t.courseId)
    (h : (findOrCreateSubscription t.id child).run s = (r, s')) : s.Move b asked s' := by
  obtain ⟨hlater, hopen, hends⟩ := of_findOrCreateSubscription h
  refine ⟨hlater, hopen, hends.imp_right ?_⟩
  rintro ⟨hopen', rows, sub, hrows, hnew, hfollows, rfl, hdrew, hstored⟩
  rw [hstored]
  exact ⟨hopen', .subscription hdrew ht hfollows hother hrows hnew⟩

end Store

namespace Tables

variable {α : Type} {test : α → Bool} {row a : α} {rows : List α}

theorem upsert_of_none (h : ∀ a ∈ rows, test a = false) : upsert test row rows = rows ++ [row] := by
  unfold upsert
  rw [if_neg]
  intro hany
  obtain ⟨a, ha, htest⟩ := List.any_eq_true.1 hany
  rw [h a ha] at htest
  cases htest

theorem upsert_of_find? (h : rows.find? test = some a) :
    upsert test row rows = replaceFirst test row rows := by
  unfold upsert
  rw [if_pos]
  exact List.any_eq_true.2 ⟨a, List.mem_of_find?_eq_some h, List.find?_some h⟩

/-- A row that is added or put in the place of one with its key is found under it, and every other row
under its own. -/
theorem find?_upsert {β : Type} [DecidableEq β] (f : α → β) (row : α) (rows : List α) (k : β) :
    (upsert (fun r => f r = f row) row rows).find? (fun r => f r = k) =
      if k = f row then some row else rows.find? fun r => f r = k := by
  cases hfind : rows.find? fun r => f r = f row with
  | some found => rw [upsert_of_find? hfind, find?_replaceFirst hfind]
  | none =>
    rw [upsert_of_none fun r hr => Bool.eq_false_iff.2 (List.find?_eq_none.1 hfind r hr),
      List.find?_append]
    by_cases hk : k = f row
    · simp [hk, hfind]
    · simp [hk, Ne.symm hk]

end Tables

end CourseBlueprint
