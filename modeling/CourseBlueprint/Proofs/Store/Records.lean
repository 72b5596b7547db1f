import CourseBlueprint.Proofs.Store.Basic
import CourseBlueprint.Store.Records

/-!
# What looking up and recording do

Looking up a tag answers the first row that is seen for it. A child tag that is found or created is
the first one held for its content; removing changes from a tag that is held leaves it without these
changes, and every other content with the tag it had. All of this holds of any store whose clock
shows dates: if a row cannot be read or written, the operation fails and no row has changed.
-/

namespace CourseBlueprint

/-! ## Rows -/

namespace Tables

/-- The first child tag of a piece of content. -/
def childTagIn (rows : List ChildTag) (content : ContentKey) : Option ChildTag :=
  rows.find? fun t => t.content = content

theorem content_of_childTagIn {rows : List ChildTag} {content : ContentKey} {tag : ChildTag}
    (h : childTagIn rows content = some tag) : tag.content = content := by
  simpa using List.find?_some h

theorem childTagIn_append {rows : List ChildTag} {t : ChildTag} {content : ContentKey} :
    childTagIn (rows ++ [t]) content =
      (childTagIn rows content).or (if t.content = content then some t else none) := by
  unfold childTagIn
  rw [List.find?_append]
  by_cases h : t.content = content
  · simp [h]
  · simp [h]

/-- A row that is put in the place of the first one with its key is found under it, and every other
row under its own. -/
theorem find?_replaceFirst {α β : Type} [DecidableEq β] {f : α → β} {row found : α} {rows : List α}
    (hfound : rows.find? (fun r => f r = f row) = some found) (k : β) :
    (replaceFirst (fun r => f r = f row) row rows).find? (fun r => f r = k) =
      if k = f row then some row else rows.find? fun r => f r = k := by
  induction rows with
  | nil => cases hfound
  | cons r rows ih =>
    unfold replaceFirst
    by_cases hr : f r = f row
    · rw [if_pos (decide_eq_true hr)]
      by_cases hk : k = f row
      · simp [hk]
      · simp [hk, hr, Ne.symm hk]
    · rw [if_neg (by simpa using hr)]
      rw [List.find?_cons_of_neg (by simpa using hr)] at hfound
      by_cases hk : f r = k
      · have : k ≠ f row := fun h => hr (hk.trans h)
        simp [hk, this]
      · have hneg : ∀ rows : List α, (r :: rows).find? (fun r => f r = k) =
            rows.find? fun r => f r = k :=
          fun _ => List.find?_cons_of_neg (by simpa using hk)
        rw [hneg, hneg]
        exact ih hfound

/-- A row that is replaced by one of the same content is found in its place. -/
theorem childTagIn_replaceFirst {rows : List ChildTag} {tag tag' : ChildTag}
    (htag : childTagIn rows tag.content = some tag) (hsame : tag'.content = tag.content)
    (content : ContentKey) :
    childTagIn (replaceFirst (fun t => t.content = tag.content) tag' rows) content =
      if content = tag.content then some tag' else childTagIn rows content := by
  rw [← hsame] at htag ⊢
  exact find?_replaceFirst htag content

end Tables

/-- The child tag that is held for a piece of content. -/
def Stored.childTag? (st : Stored) (content : ContentKey) : Result (Option ChildTag) :=
  st.childTags.map fun rows => Tables.childTagIn rows content

/-- What is held with other child tags. -/
def Stored.withChildTags (st : Stored) (rows : List ChildTag) : Stored :=
  { st with childTags := .ok rows }

theorem Stored.withChildTags_of_rows {st : Stored} {rows : List ChildTag}
    (h : st.childTags = .ok rows) : st.withChildTags rows = st := Stored.ext rfl rfl rfl h.symm

/-- The row that stands for a child tag whose changes are set. -/
def ChildTag.withChanges (tag : ChildTag) (changes : NameSet) (time : Timestamp) : ChildTag :=
  { tag with changes := changes, updatedAt := time }

/-- What is held after the changes of a child tag that is held are set. -/
def Stored.SetsChanges (st : Stored) (tag : ChildTag) (changes : NameSet) (st' : Stored) : Prop :=
  ∃ rows time, st.childTags = .ok rows ∧ Tables.childTagIn rows tag.content = some tag ∧
    st' = st.withChildTags (Tables.replaceFirst (fun t => t.content = tag.content)
      (tag.withChanges changes time) rows)

/-- Whether the clock always shows dates. -/
def Supply.ShowsDates (p : Supply) : Prop := ∀ n, (p.times n).IsDate

/-- A supply of which more was used. -/
structure Supply.Later (p p' : Supply) : Prop where
  ids : p'.ids = p.ids
  times : p'.times = p.times
  idsUsed : p.idsUsed ≤ p'.idsUsed

namespace Supply

theorem Later.refl (p : Supply) : p.Later p := ⟨rfl, rfl, Nat.le_refl _⟩

theorem Later.trans {p p' p'' : Supply} (h : p.Later p') (h' : p'.Later p'') : p.Later p'' :=
  ⟨h'.ids.trans h.ids, h'.times.trans h.times, Nat.le_trans h.idsUsed h'.idsUsed⟩

theorem Later.of_eq {p p' : Supply} (h : p' = p) : p.Later p' := h ▸ .refl p

theorem Later.showsDates {p p' : Supply} (h : p.Later p') (hp : p.ShowsDates) : p'.ShowsDates := by
  intro n
  rw [h.times]
  exact hp n

end Supply

namespace Store

/-! ## New identifiers and times -/

/-- The store after a new identifier. -/
def afterId (s : Store) : Store :=
  { s with supply := { s.supply with idsUsed := s.supply.idsUsed + 1 } }

/-- The store after a look at the clock. -/
def afterTime (s : Store) : Store :=
  { s with supply := { s.supply with timesUsed := s.supply.timesUsed + 1 } }

theorem run_newId (s : Store) : newId.run s = (.ok (s.supply.ids s.supply.idsUsed), s.afterId) := rfl

theorem run_now (s : Store) : now.run s = (.ok (s.supply.times s.supply.timesUsed), s.afterTime) := rfl

@[simp] theorem stored_afterId (s : Store) : s.afterId.stored = s.stored := rfl
@[simp] theorem stored_afterTime (s : Store) : s.afterTime.stored = s.stored := rfl
theorem later_afterId (s : Store) : s.supply.Later s.afterId.supply :=
  ⟨rfl, rfl, Nat.le_succ _⟩

theorem later_afterTime (s : Store) : s.supply.Later s.afterTime.supply :=
  ⟨rfl, rfl, Nat.le_refl _⟩

/-! ## Looking up -/

theorem run_childTag? (content : ContentKey) (s : Store) :
    (childTag? content).run s = (s.seen.childTag? content, s) := by
  have h := run_childTags s
  obtain ⟨m | d, p⟩ := s
  · rfl
  · rw [childTags, run_onPlace_directory, Prod.mk.injEq] at h
    obtain ⟨hrows, hplace⟩ := h
    rw [childTag?, run_onPlace_directory, Directory.childTag?, Action.run_bind]
    rw [Directory.childTags, Directory.run_rows] at hrows ⊢
    simp only at hrows
    rw [hrows, Stored.childTag?]
    cases (seen ⟨.directory d, p⟩).childTags with
    | error e => rfl
    | ok rows => rfl

theorem run_masterTag? (id : String) (s : Store) :
    ∃ s', s.Alike s' ∧ (masterTag? id).run s =
      (s.seen.masterTags.map fun rows => rows.find? fun t => t.migrationId = id, s') := by
  have h := run_masterTags s
  obtain ⟨m | d, p⟩ := s
  · refine ⟨⟨.memory { m with lookups := m.lookups ++ [[id]] }, p⟩, ⟨rfl, rfl, rfl⟩, ?_⟩
    rw [masterTag?, Action.run_bind_ok (rfl : (masterTagsWith [id]).run _ = _), Action.run_pure]
    refine Prod.ext ?_ rfl
    show Except.ok _ = Except.ok _
    simp only [List.filterMap_cons, List.filterMap_nil]
    cases m.tables.masterTags.find? fun t => t.migrationId = id with
    | none => rfl
    | some t => rfl
  · refine ⟨_, Alike.refl _, ?_⟩
    rw [masterTags, run_onPlace_directory, Prod.mk.injEq] at h
    obtain ⟨hrows, -⟩ := h
    rw [masterTag?, Action.run_bind, masterTagsWith, run_onPlace_directory, Directory.masterTagsOf,
      Action.run_bind]
    rw [Directory.masterTags, Directory.run_rows] at hrows ⊢
    simp only at hrows
    rw [hrows]
    cases (seen ⟨.directory d, p⟩).masterTags with
    | error e => rfl
    | ok rows =>
      show (Except.ok (rows.filter _).head?, _) = (Except.ok _, _)
      rw [List.head?_filter]
      simp

/-! ## Child tags -/

/-- How finding or creating the child tag of a piece of content ends: with a failure that changes no
row, or with the tag that is then held, which was there or is new and without changes. -/
structure FoundOrCreated (s : Store) (subscription : Uuid) (content : ContentKey)
    (migrationId : Option String) (r : Result ChildTag) (s' : Store) : Prop where
  supply : s.supply.Later s'.supply
  isOpen : s.isOpen = true → s'.isOpen = true
  ends : (∃ e, r = .error e ∧ s'.stored = s.stored) ∨
    ∃ tag, r = .ok tag ∧ s'.isOpen = true ∧ s'.stored.childTag? content = .ok (some tag) ∧
      (s'.stored = s.stored ∨
        ∃ rows, s.stored.childTags = .ok rows ∧ Tables.childTagIn rows content = none ∧
          tag.subscriptionId = subscription ∧ tag.content = content ∧
          tag.migrationId = migrationId ∧ tag.changes = ∅ ∧
          s'.stored = s.stored.withChildTags (rows ++ [tag]))

/-- A tag that was found or created is held, and seen. -/
theorem FoundOrCreated.held {s s' : Store} {subscription : Uuid} {content : ContentKey}
    {migrationId : Option String} {tag : ChildTag}
    (h : FoundOrCreated s subscription content migrationId (.ok tag) s') :
    s'.isOpen = true ∧ s'.stored.childTag? content = .ok (some tag) := by
  rcases h.ends with ⟨e, he, -⟩ | ⟨tag', htag, hopen, hheld, -⟩
  · cases he
  · cases htag
    exact ⟨hopen, hheld⟩

theorem FoundOrCreated.stored_of_error {s s' : Store} {subscription : Uuid} {content : ContentKey}
    {migrationId : Option String} {e : Failure}
    (h : FoundOrCreated s subscription content migrationId (.error e) s') :
    s'.stored = s.stored := by
  rcases h.ends with ⟨-, -, hstored⟩ | ⟨tag, htag, -⟩
  · exact hstored
  · cases htag

theorem childTag?_withChildTags {st : Stored} {rows : List ChildTag} {content : ContentKey} :
    (st.withChildTags rows).childTag? content = .ok (Tables.childTagIn rows content) := rfl

theorem childTag?_of_rows {st : Stored} {rows : List ChildTag} (h : st.childTags = .ok rows)
    (content : ContentKey) : st.childTag? content = .ok (Tables.childTagIn rows content) := by
  rw [Stored.childTag?, h]
  rfl

/-- Finding or creating a tag leaves the tags of other contents. -/
theorem FoundOrCreated.childTag?_of_ne {s s' : Store} {subscription : Uuid} {content : ContentKey}
    {migrationId : Option String} {r : Result ChildTag}
    (h : FoundOrCreated s subscription content migrationId r s') {other : ContentKey}
    (hne : other ≠ content) : s'.stored.childTag? other = s.stored.childTag? other := by
  rcases h.ends with ⟨-, -, hstored⟩ | ⟨tag, -, -, -, hstored | ⟨rows, hrows, -, -, hcontent, -, -,
    hstored⟩⟩
  · rw [hstored]
  · rw [hstored]
  · rw [hstored, childTag?_of_rows hrows, childTag?_withChildTags, Tables.childTagIn_append,
      if_neg (by rw [hcontent]; exact Ne.symm hne), Option.or_none]

/-- Finding or creating a tag leaves the tags there were. -/
theorem FoundOrCreated.childTag?_of_held {s s' : Store} {subscription : Uuid}
    {content : ContentKey} {migrationId : Option String} {r : Result ChildTag}
    (h : FoundOrCreated s subscription content migrationId r s') {other : ContentKey}
    {tag : ChildTag} (htag : s.stored.childTag? other = .ok (some tag)) :
    s'.stored.childTag? other = .ok (some tag) := by
  rcases h.ends with ⟨-, -, hstored⟩ | ⟨found, -, -, -, hstored | ⟨rows, hrows, -, -, -, -, -,
    hstored⟩⟩
  · rw [hstored, htag]
  · rw [hstored, htag]
  · rw [childTag?_of_rows hrows] at htag
    rw [hstored, childTag?_withChildTags, Tables.childTagIn_append, Except.ok.inj htag]
    rfl

/-- A tag that is held is found. -/
theorem FoundOrCreated.eq_of_held {s s' : Store} {subscription : Uuid} {content : ContentKey}
    {migrationId : Option String} {tag tag₀ : ChildTag}
    (h : FoundOrCreated s subscription content migrationId (.ok tag) s')
    (hheld : s.stored.childTag? content = .ok (some tag₀)) : tag = tag₀ ∧ s'.stored = s.stored := by
  rcases h.ends with ⟨e, he, -⟩ | ⟨tag', htag, -, hheld', hstored | ⟨rows, hrows, hnone, -⟩⟩
  · cases he
  · cases htag
    rw [hstored, hheld] at hheld'
    exact ⟨(Option.some.inj (Except.ok.inj hheld')).symm, hstored⟩
  · rw [childTag?_of_rows hrows, hnone] at hheld
    cases hheld

/-- A tag that was not held is created without changes. -/
theorem FoundOrCreated.changes_of_not_held {s s' : Store} {subscription : Uuid}
    {content : ContentKey} {migrationId : Option String} {tag : ChildTag}
    (h : FoundOrCreated s subscription content migrationId (.ok tag) s')
    (hheld : s.stored.childTag? content = .ok none) : tag.changes = ∅ := by
  rcases h.ends with ⟨e, he, -⟩ | ⟨tag', htag, -, hheld', hstored | ⟨-, -, -, -, -, -, hchanges, -⟩⟩
  · cases he
  · rw [hstored, hheld] at hheld'
    cases hheld'
  · cases htag
    exact hchanges

theorem childTagIn_withChanges {rows : List ChildTag} {tag : ChildTag}
    (h : Tables.childTagIn rows tag.content = some tag) (changes : NameSet) (time : Timestamp)
    (content : ContentKey) :
    Tables.childTagIn (Tables.replaceFirst (fun t => t.content = tag.content)
      (tag.withChanges changes time) rows) content =
      if content = tag.content then some (tag.withChanges changes time)
      else Tables.childTagIn rows content :=
  Tables.childTagIn_replaceFirst h (rfl : (tag.withChanges changes time).content = _) content

/-- Setting the changes of a tag changes no other tag. -/
theorem childTag?_of_setsChanges {st st' : Stored} {tag : ChildTag} {changes : NameSet}
    (h : st.SetsChanges tag changes st') :
    (∃ tag', st'.childTag? tag.content = .ok (some tag') ∧ tag'.changes = changes) ∧
      ∀ content, content ≠ tag.content → st'.childTag? content = st.childTag? content := by
  obtain ⟨rows, time, hrows, hfind, rfl⟩ := h
  constructor
  · refine ⟨tag.withChanges changes time, ?_, rfl⟩
    rw [childTag?_withChildTags, childTagIn_withChanges hfind, if_pos rfl]
  · intro content hne
    rw [childTag?_withChildTags, childTagIn_withChanges hfind, if_neg hne, childTag?_of_rows hrows]

theorem childTag?_eq_some {st : Stored} {content : ContentKey} {tag : ChildTag}
    (h : st.childTag? content = .ok (some tag)) :
    ∃ rows, st.childTags = .ok rows ∧ Tables.childTagIn rows content = some tag := by
  unfold Stored.childTag? at h
  cases hrows : st.childTags with
  | error e => rw [hrows] at h; cases h
  | ok rows =>
    rw [hrows] at h
    exact ⟨rows, rfl, Except.ok.inj h⟩

theorem content_of_childTag? {st : Stored} {content : ContentKey} {tag : ChildTag}
    (h : st.childTag? content = .ok (some tag)) : tag.content = content := by
  obtain ⟨rows, -, hfind⟩ := childTag?_eq_some h
  exact Tables.content_of_childTagIn hfind

theorem findOrCreateChildTag_spec {subscription : Uuid} {content : ContentKey}
    {migrationId : Option String} {s s' : Store} {r : Result ChildTag}
    (hclock : s.supply.ShowsDates)
    (h : (findOrCreateChildTag subscription content migrationId).run s = (r, s')) :
    FoundOrCreated s subscription content migrationId r s' := by
  rw [findOrCreateChildTag, Action.run_bind, run_childTag?] at h
  rcases hseen : s.seen.childTag? content with e | _ | tag
  · rw [hseen] at h
    obtain ⟨rfl, rfl⟩ := Prod.mk.inj h
    exact ⟨.refl _, id, .inl ⟨e, rfl, rfl⟩⟩
  · rw [hseen] at h
    simp only [Action.run_bind_ok (run_newId s), Action.run_bind_ok (run_now s.afterId)] at h
    have htime : (s.afterId.supply.times s.afterId.supply.timesUsed).IsDate := hclock _
    have hins := insertChildTag_performed ⟨htime, htime⟩ h
    have hlater : s.supply.Later s'.supply := by
      rw [hins.supply]
      exact (later_afterId s).trans (later_afterTime _)
    refine ⟨hlater, hins.isOpen, ?_⟩
    rcases hins.ends with ⟨e, he, hstored⟩ | ⟨tag, hf, hr, hopen⟩
    · exact .inl ⟨e, he, hstored⟩
    · refine .inr ⟨tag, hr, hopen, ?_⟩
      simp only [Shelf.revise, childTagShelf, stored_afterTime, stored_afterId] at hf
      cases hrows : s.stored.childTags with
      | error e => rw [hrows] at hf; cases hf
      | ok rows =>
        rw [hrows] at hf
        obtain ⟨htag, hstored⟩ := Prod.mk.inj (Except.ok.inj hf)
        cases hfind : rows.find? fun t => t.content = content with
        | some found =>
          simp only [Tables.insertUnless, hfind] at htag hstored
          rw [← hstored, Stored.childTag?, hrows, ← htag]
          exact ⟨congrArg Except.ok hfind, .inl rfl⟩
        | none =>
          simp only [Tables.insertUnless, hfind] at htag hstored
          refine ⟨?_, .inr ⟨rows, rfl, hfind, by rw [← htag], by rw [← htag], by rw [← htag],
            by rw [← htag], by rw [← hstored, htag]; rfl⟩⟩
          rw [← hstored, htag, Stored.childTag?]
          show Except.ok (Tables.childTagIn (rows ++ [tag]) content) = _
          rw [Tables.childTagIn_append, Tables.childTagIn, hfind, ← htag]
          simp
  · rw [hseen] at h
    obtain ⟨rfl, rfl⟩ := Prod.mk.inj h
    have hopen : s.isOpen = true := by
      cases hopen : s.isOpen with
      | true => rfl
      | false =>
        have : s.seen = .of .empty := if_neg (by simp [hopen])
        rw [this] at hseen
        cases hseen
    rw [seen_of_isOpen hopen] at hseen
    exact ⟨.refl _, id, .inr ⟨tag, rfl, hopen, hseen, .inl rfl⟩⟩

/-- How work on the child tag of a piece of content ends: with a failure that changes no row, without
a tag to work on, or with the answer and the tag that was given back. -/
structure Updated (s : Store) (content : ContentKey) (update : ChildTag → α × Option ChildTag)
    (r : Result (Option α)) (s' : Store) : Prop where
  supply : s.supply.Later s'.supply
  isOpen : s.isOpen = true → s'.isOpen = true
  ends : (∃ e, r = .error e ∧ s'.stored = s.stored) ∨
    s'.isOpen = true ∧ ∃ rows, s.stored.childTags = .ok rows ∧
      match Tables.childTagIn rows content with
      | none => r = .ok none ∧ s'.stored = s.stored
      | some tag => r = .ok (some (update tag).1) ∧
        match (update tag).2 with
        | none => s'.stored = s.stored
        | some tag' => ∃ time, s'.stored = s.stored.withChildTags
            (Tables.replaceFirst (fun t => t.content = content) { tag' with updatedAt := time } rows)

/-- Work on a child tag that changes nothing but its changes. -/
def RevisesChanges (update : ChildTag → α × Option ChildTag) : Prop :=
  ∀ t t', (update t).2 = some t' → ∃ changes, t' = { t with changes := changes }

/-- What is stamped with a date is dated, if it was before. -/
theorem RevisesChanges.isDated_stamped {update : ChildTag → α × Option ChildTag}
    (hupdate : RevisesChanges update) {time : Timestamp} (htime : time.IsDate) :
    ∀ t t', t.IsDated → (((update t).1, (update t).2.map fun t' => { t' with updatedAt := time }) :
      α × Option ChildTag).2 = some t' → t'.IsDated := by
  intro t t' ht ht'
  obtain ⟨t'', hu, rfl⟩ := Option.map_eq_some_iff.1 ht'
  refine ⟨?_, htime⟩
  obtain ⟨changes, rfl⟩ := hupdate t t'' hu
  exact ht.createdAt

theorem updateChildTag_spec {content : ContentKey} {update : ChildTag → α × Option ChildTag}
    (hupdate : RevisesChanges update) {s s' : Store} {r : Result (Option α)}
    (hclock : s.supply.ShowsDates)
    (h : (updateChildTag content update).run s = (r, s')) : Updated s content update r s' := by
  rw [updateChildTag, Action.run_bind_ok (run_now s)] at h
  have htime : (s.supply.times s.supply.timesUsed).IsDate := hclock _
  have hup := updateChildTag_performed (hupdate.isDated_stamped htime) h
  refine ⟨?_, hup.isOpen, ?_⟩
  · rw [hup.supply]
    exact later_afterTime s
  · rcases hup.ends with ⟨e, he, hstored⟩ | ⟨a, hf, hr, hopen⟩
    · exact .inl ⟨e, he, hstored⟩
    · simp only [Shelf.revise, childTagShelf, stored_afterTime] at hf
      cases hrows : s.stored.childTags with
      | error e => rw [hrows] at hf; cases hf
      | ok rows =>
        rw [hrows] at hf
        obtain ⟨ha, hstored⟩ := Prod.mk.inj (Except.ok.inj hf)
        refine .inr ⟨hopen, rows, rfl, ?_⟩
        unfold Tables.childTagIn
        cases hfind : rows.find? fun t => t.content = content with
        | none =>
          simp only [Tables.updateChildTag, hfind] at ha hstored ⊢
          exact ⟨by rw [hr, ← ha], hstored.symm⟩
        | some tag =>
          simp only [Tables.updateChildTag, hfind] at ha hstored ⊢
          refine ⟨by rw [hr, ← ha], ?_⟩
          cases hnew : (update tag).2 with
          | none =>
            simp only [hnew, Option.map_none] at hstored
            exact hstored.symm
          | some tag' =>
            simp only [hnew, Option.map_some] at hstored
            exact ⟨_, hstored.symm⟩

/-- A tag without some of its changes, if it has any of them. -/
def removal (columns : NameSet) (t : ChildTag) : Bool × Option ChildTag :=
  let left := t.changes \ columns
  if left = t.changes then (false, none) else (true, some { t with changes := left })

/-- The columns that a tag lacks among its changes, and the tag with them if there are any. -/
def merging (columns : NameSet) (t : ChildTag) : NameSet × Option ChildTag :=
  let added := columns \ t.changes
  (added, if added.isEmpty then none else some { t with changes := t.changes ∪ added })

theorem revisesChanges_removal (columns : NameSet) : RevisesChanges (removal columns) := by
  intro t t' h
  unfold removal at h
  simp only at h
  split at h
  · cases h
  · exact ⟨_, (Option.some.inj h).symm⟩

theorem revisesChanges_merging (columns : NameSet) : RevisesChanges (merging columns) := by
  intro t t' h
  unfold merging at h
  simp only at h
  split at h
  · cases h
  · exact ⟨_, (Option.some.inj h).symm⟩

/-- How removing changes from a tag that is held ends: with a failure that changes no row, with
nothing to remove, or with the other changes left. -/
theorem removeChanges_spec {tag : ChildTag} {columns : NameSet} {s s' : Store} {r : Result Bool}
    (hclock : s.supply.ShowsDates) (htag : s.stored.childTag? tag.content = .ok (some tag))
    (h : (removeChanges tag.content columns).run s = (r, s')) :
    s.supply.Later s'.supply ∧ (s.isOpen = true → s'.isOpen = true) ∧
      ((∃ e, r = .error e ∧ s'.stored = s.stored) ∨
        (∃ b, r = .ok b) ∧ s'.isOpen = true ∧
          (tag.changes \ columns = tag.changes ∧ s'.stored = s.stored ∨
            s.stored.SetsChanges tag (tag.changes \ columns) s'.stored)) := by
  have hdef : removeChanges tag.content columns =
      updateChildTag tag.content (removal columns) >>= fun removed? =>
        pure (removed?.getD false) := rfl
  rw [hdef, Action.run_bind] at h
  rcases hrun : (updateChildTag tag.content (removal columns)).run s with ⟨ru, s₁⟩
  have hup := updateChildTag_spec (revisesChanges_removal columns) hclock hrun
  rw [hrun] at h
  obtain ⟨rows, hrows, hfind⟩ := childTag?_eq_some htag
  rcases hup.ends with ⟨e, rfl, hstored⟩ | ⟨hopen, rows', hrows', hends⟩
  · obtain ⟨rfl, rfl⟩ := Prod.mk.inj h
    exact ⟨hup.supply, hup.isOpen, .inl ⟨e, rfl, hstored⟩⟩
  · rw [hrows] at hrows'
    obtain rfl := Except.ok.inj hrows'
    rw [hfind] at hends
    obtain ⟨rfl, hends⟩ := hends
    obtain ⟨rfl, rfl⟩ := Prod.mk.inj h
    refine ⟨hup.supply, hup.isOpen, .inr ⟨⟨_, rfl⟩, hopen, ?_⟩⟩
    by_cases hleft : tag.changes \ columns = tag.changes
    · simp only [removal, hleft, if_true] at hends
      exact .inl ⟨hleft, hends⟩
    · simp only [removal, hleft, if_false] at hends
      obtain ⟨time, hends⟩ := hends
      exact .inr ⟨rows, time, hrows, hfind, hends⟩

/-- Recording changes is work on one child tag. -/
theorem mergeChanges_eq (content : ContentKey) (columns : NameSet) :
    mergeChanges content columns = updateChildTag content (merging columns) >>= fun added? =>
      pure (added?.elim .missing fun added =>
        if added.isEmpty then .unchanged else .grew added) := by
  refine bind_congr fun added? => ?_
  cases added? with
  | none => rfl
  | some added => rfl

/-- How recording changes ends: with a failure that changes no row, without a tag to record them on,
with nothing that was not recorded before, or with the changes added. -/
theorem mergeChanges_spec {content : ContentKey} {columns : NameSet} {s s' : Store}
    {r : Result Merge} (hclock : s.supply.ShowsDates)
    (h : (mergeChanges content columns).run s = (r, s')) :
    s.supply.Later s'.supply ∧ (s.isOpen = true → s'.isOpen = true) ∧
      ((∃ e, r = .error e ∧ s'.stored = s.stored) ∨
        s'.isOpen = true ∧
          (r = .ok .missing ∧ s.stored.childTag? content = .ok none ∧ s'.stored = s.stored ∨
            ∃ tag, s.stored.childTag? content = .ok (some tag) ∧
              (r = .ok .unchanged ∧ (columns \ tag.changes).isEmpty = true ∧
                  s'.stored = s.stored ∨
                r = .ok (.grew (columns \ tag.changes)) ∧
                  (columns \ tag.changes).isEmpty = false ∧
                  s.stored.SetsChanges tag (tag.changes ∪ (columns \ tag.changes)) s'.stored))) := by
  rw [mergeChanges_eq, Action.run_bind] at h
  rcases hrun : (updateChildTag content (merging columns)).run s with ⟨ru, s₁⟩
  have hup := updateChildTag_spec (revisesChanges_merging columns) hclock hrun
  rw [hrun] at h
  rcases hup.ends with ⟨e, rfl, hstored⟩ | ⟨hopen, rows, hrows, hends⟩
  · obtain ⟨rfl, rfl⟩ := Prod.mk.inj h
    exact ⟨hup.supply, hup.isOpen, .inl ⟨e, rfl, hstored⟩⟩
  · have hheld : s.stored.childTag? content = .ok (Tables.childTagIn rows content) := by
      rw [Stored.childTag?, hrows]
      rfl
    rw [hheld]
    cases hfind : Tables.childTagIn rows content with
    | none =>
      rw [hfind] at hends
      obtain ⟨rfl, hstored⟩ := hends
      obtain ⟨rfl, rfl⟩ := Prod.mk.inj h
      exact ⟨hup.supply, hup.isOpen, .inr ⟨hopen, .inl ⟨rfl, rfl, hstored⟩⟩⟩
    | some tag =>
      rw [hfind] at hends
      obtain ⟨rfl, hends⟩ := hends
      obtain rfl := Tables.content_of_childTagIn hfind
      simp only [Action.run_pure, Option.elim_some] at h
      cases hadded : (columns \ tag.changes).isEmpty with
      | true =>
        simp only [merging, hadded, if_true] at h hends
        obtain ⟨rfl, rfl⟩ := Prod.mk.inj h
        exact ⟨hup.supply, hup.isOpen, .inr ⟨hopen, .inr ⟨tag, rfl, .inl ⟨rfl, hadded, hends⟩⟩⟩⟩
      | false =>
        simp only [merging, hadded, Bool.false_eq_true, if_false] at h hends
        obtain ⟨rfl, rfl⟩ := Prod.mk.inj h
        obtain ⟨time, hends⟩ := hends
        exact ⟨hup.supply, hup.isOpen, .inr ⟨hopen, .inr ⟨tag, rfl, .inr ⟨rfl, hadded,
          rows, time, hrows, hfind, hends⟩⟩⟩⟩

end Store

/-! ## A supply -/

namespace Sample

/-- New identifiers are counted up from 100, and the clock stands still. -/
def supply : Supply := ⟨fun n => ⟨BitVec.ofNat 128 (100 + n)⟩, fun _ => .epoch, 0, 0⟩

theorem showsDates_supply : supply.ShowsDates := by
  intro _
  show Timestamp.epoch.IsDate
  exact ⟨by decide, by decide⟩

end Sample

end CourseBlueprint
