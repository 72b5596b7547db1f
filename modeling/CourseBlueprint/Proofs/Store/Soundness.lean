import CourseBlueprint.Proofs.Store.Changes
import CourseBlueprint.Proofs.Tag.MigrationIds

/-!
# Tables that fit together

`Tables.Sound` says how the rows of the four tables go together: what each table has at most once,
and which rows of other tables a row needs. Every change of rows keeps it, if new identifiers are
new and the digests of the content asked for differ (`Stored.Change.traced`), and so does any number
of moves of a store (`Store.Moves.traced`). The part of it that makes look-ups by key unique,
`Tables.Keyed`, is kept in any case (`Store.Moves.keyed`).
-/

namespace CourseBlueprint

/-! ## Rows that go together -/

namespace Tables

section Rows

variable {α β : Type} {f : α → β} {test : α → Bool} {row a : α} {rows : List α}

/-- A row that differs from all others in one respect is added without a repetition. -/
theorem nodup_map_append (h : (rows.map f).Nodup) (hnew : ∀ a ∈ rows, f a ≠ f row) :
    ((rows ++ [row]).map f).Nodup := by
  rw [List.map_append, List.nodup_append]
  refine ⟨h, List.nodup_cons.2 ⟨List.not_mem_nil, List.nodup_nil⟩, ?_⟩
  intro x hx y hy
  obtain ⟨a, ha, rfl⟩ := List.mem_map.1 hx
  rw [List.mem_singleton.1 hy]
  exact hnew a ha

/-- Rows that differ in one respect are the same if they are alike in it. -/
theorem eq_of_nodup_map {a' : α} (h : (rows.map f).Nodup) (ha : a ∈ rows) (ha' : a' ∈ rows)
    (heq : f a = f a') : a = a' := by
  induction rows with
  | nil => exact absurd ha List.not_mem_nil
  | cons row rows ih =>
    rw [List.map_cons, List.nodup_cons] at h
    rcases List.mem_cons.1 ha with rfl | hrest
    · rcases List.mem_cons.1 ha' with rfl | hrest'
      · rfl
      · exact absurd (heq ▸ List.mem_map_of_mem hrest') h.1
    · rcases List.mem_cons.1 ha' with rfl | hrest'
      · exact absurd (heq ▸ List.mem_map_of_mem hrest) h.1
      · exact ih h.2 hrest hrest'

/-- Of rows with different keys, the one that is found under a key is the one that has it. -/
theorem find?_eq_some_iff [DecidableEq β] (h : (rows.map f).Nodup) {k : β} :
    (rows.find? fun row => f row = k) = some a ↔ a ∈ rows ∧ f a = k := by
  constructor
  · intro hfind
    exact ⟨List.mem_of_find?_eq_some hfind, by simpa using List.find?_some hfind⟩
  · rintro ⟨ha, rfl⟩
    cases hfind : rows.find? fun row => f row = f a with
    | none => exact absurd (decide_eq_true rfl) (List.find?_eq_none.1 hfind a ha)
    | some a' =>
      have hkey : f a' = f a := by simpa using List.find?_some hfind
      rw [eq_of_nodup_map h (List.mem_of_find?_eq_some hfind) ha hkey]

/-- In the respects in which a row is like the one it replaces, the rows stay the same. -/
theorem map_replaceFirst (hfound : rows.find? test = some a) (hlike : f row = f a) :
    (replaceFirst test row rows).map f = rows.map f := by
  induction rows with
  | nil => cases hfound
  | cons r rows ih =>
    unfold replaceFirst
    by_cases hr : test r = true
    · rw [List.find?_cons_of_pos hr] at hfound
      obtain rfl := Option.some.inj hfound
      rw [if_pos hr, List.map_cons, List.map_cons, hlike]
    · rw [List.find?_cons_of_neg hr] at hfound
      rw [if_neg hr, List.map_cons, List.map_cons, ih hfound]

/-- A row that is put in its own place changes nothing. -/
theorem replaceFirst_self (h : rows.find? test = some a) : replaceFirst test a rows = rows := by
  induction rows with
  | nil => rfl
  | cons row rows ih =>
    unfold replaceFirst
    by_cases hrow : test row = true
    · rw [List.find?_cons_of_pos hrow] at h
      rw [if_pos hrow, Option.some.inj h]
    · rw [List.find?_cons_of_neg hrow] at h
      rw [if_neg hrow, ih h]

theorem nodup_map_replaceFirst (hfound : rows.find? test = some a) (hlike : f row = f a)
    (h : (rows.map f).Nodup) : ((replaceFirst test row rows).map f).Nodup := by
  rw [map_replaceFirst hfound hlike]
  exact h

/-- Adding a row, or replacing the one that has its key, keeps the keys different. -/
theorem nodup_map_upsert [DecidableEq β] (h : (rows.map f).Nodup) :
    ((upsert (fun r => f r = f row) row rows).map f).Nodup := by
  cases hfind : rows.find? fun r => f r = f row with
  | some found =>
    have hkey : f found = f row := by simpa using List.find?_some hfind
    rw [upsert_of_find? hfind]
    exact nodup_map_replaceFirst hfind hkey.symm h
  | none =>
    have hnew := List.find?_eq_none.1 hfind
    rw [upsert_of_none fun r hr => Bool.eq_false_iff.2 (hnew r hr)]
    exact nodup_map_append h fun r hr heq => hnew r hr (decide_eq_true heq)

theorem exists_mem_replaceFirst (hfound : rows.find? test = some a) (hlike : f row = f a) {x : α}
    (hx : x ∈ rows) : ∃ y ∈ replaceFirst test row rows, f y = f x := by
  have hmem : f x ∈ (replaceFirst test row rows).map f := by
    rw [map_replaceFirst hfound hlike]
    exact List.mem_map_of_mem hx
  exact List.mem_map.1 hmem

end Rows

/-- What the tables have once at most, whatever identifiers are drawn: master tags under a migration
identifier, which is that of the tag's content in its template, and child tags of a piece of
content. -/
structure Keyed (b : Rulebook) (ts : Tables) : Prop where
  migrationIds : (ts.masterTags.map MasterTag.migrationId).Nodup
  derived : ∀ m ∈ ts.masterTags, ∃ t ∈ ts.templates, t.id = m.templateId ∧
    m.migrationId = t.migrationId b.settings.marker m.content
  contents : (ts.childTags.map ChildTag.content).Nodup

/-- How the rows of the tables go together, by the rules of a deployment. -/
structure Sound (b : Rulebook) (ts : Tables) : Prop extends ts.Keyed b where
  templateIds : (ts.templates.map Template.id).Nodup
  /-- A course has one template at most. -/
  templateCourses : (ts.templates.map Template.courseId).Nodup
  subscriptionIds : (ts.subscriptions.map Subscription.id).Nodup
  /-- A child course follows a template once at most. -/
  pairings : (ts.subscriptions.map fun s => (s.templateId, s.childCourseId)).Nodup
  /-- What is followed is a template, of another course than the child course. -/
  followed : ∀ s ∈ ts.subscriptions,
    ∃ t ∈ ts.templates, t.id = s.templateId ∧ t.courseId ≠ s.childCourseId
  kinds : ∀ m ∈ ts.masterTags, m.content.kind ≠ .folder
  /-- A copy is made for a subscription from content of its kind in the blueprint that is followed. -/
  copies : ∀ c ∈ ts.childTags, ∃ s ∈ ts.subscriptions, s.id = c.subscriptionId ∧
    ∃ m ∈ ts.masterTags, m.templateId = s.templateId ∧ c.migrationId = some m.migrationId ∧
      m.content.kind = c.content.kind
  /-- A subscription has one copy at most of each piece of blueprint content. -/
  oneCopy : (ts.childTags.map fun c => (c.subscriptionId, c.migrationId)).Nodup
  /-- What is recorded as changed is governed, or stands for a deletion. -/
  changes : ∀ c ∈ ts.childTags, ∀ x ∈ c.changes,
    x ∈ (b.registry c.content.kind).allColumns ∨ x = manuallyDeleted

theorem keyed_empty (b : Rulebook) : empty.Keyed b where
  migrationIds := List.nodup_nil
  derived := fun _ h => absurd h List.not_mem_nil
  contents := List.nodup_nil

theorem sound_empty (b : Rulebook) : empty.Sound b :=
  { keyed_empty b with
    templateIds := List.nodup_nil
    templateCourses := List.nodup_nil
    subscriptionIds := List.nodup_nil
    pairings := List.nodup_nil
    followed := fun _ h => absurd h List.not_mem_nil
    kinds := fun _ h => absurd h List.not_mem_nil
    copies := fun _ h => absurd h List.not_mem_nil
    oneCopy := List.nodup_nil
    changes := fun _ h => absurd h List.not_mem_nil }

/-- Sound tables whose identifiers were drawn and whose blueprint content was asked for. -/
structure Traced (b : Rulebook) (asked : ContentKey → Prop) (drawn : Uuid → Prop) (ts : Tables) :
    Prop extends ts.Sound b where
  templatesDrawn : ∀ t ∈ ts.templates, drawn t.id
  subscriptionsDrawn : ∀ s ∈ ts.subscriptions, drawn s.id
  mastersAsked : ∀ m ∈ ts.masterTags, asked m.content

theorem traced_empty (b : Rulebook) (asked : ContentKey → Prop) (drawn : Uuid → Prop) :
    empty.Traced b asked drawn :=
  { sound_empty b with
    templatesDrawn := fun _ h => absurd h List.not_mem_nil
    subscriptionsDrawn := fun _ h => absurd h List.not_mem_nil
    mastersAsked := fun _ h => absurd h List.not_mem_nil }

variable {b : Rulebook} {asked : ContentKey → Prop} {drawn drawn' : Uuid → Prop} {ts : Tables}

theorem Traced.mono (h : ts.Traced b asked drawn) (hdrawn : ∀ id, drawn id → drawn' id) :
    ts.Traced b asked drawn' :=
  { h with
    templatesDrawn := fun t ht => hdrawn t.id (h.templatesDrawn t ht)
    subscriptionsDrawn := fun s hs => hdrawn s.id (h.subscriptionsDrawn s hs) }

/-! ## One change -/

theorem forall_mem_append {α : Type} {p : α → Prop} {rows : List α} {row : α}
    (h : ∀ a ∈ rows, p a) (hrow : p row) : ∀ a ∈ rows ++ [row], p a := by
  intro a ha
  rcases List.mem_append.1 ha with ha | ha
  · exact h a ha
  · rw [List.mem_singleton.1 ha]
    exact hrow

theorem Keyed.template (h : ts.Keyed b) (t : Template) :
    Keyed b { ts with templates := ts.templates ++ [t] } :=
  { h with
    derived := by
      intro m hm
      obtain ⟨row, hrow, hderived⟩ := h.derived m hm
      exact ⟨row, List.mem_append_left _ hrow, hderived⟩ }

theorem Keyed.masterTag (h : ts.Keyed b) {t : Template} {tag : MasterTag} (ht : t ∈ ts.templates)
    (htemplate : tag.templateId = t.id)
    (hid : tag.migrationId = t.migrationId b.settings.marker tag.content)
    (hnew : ∀ row ∈ ts.masterTags, row.migrationId ≠ tag.migrationId) :
    Keyed b { ts with masterTags := ts.masterTags ++ [tag] } :=
  { h with
    migrationIds := nodup_map_append h.migrationIds hnew
    derived := forall_mem_append h.derived ⟨t, ht, htemplate.symm, hid⟩ }

/-- What holds of each master tag by its template, content and identifier holds of one with other
locks. -/
theorem forall_mem_relocked {rows : List MasterTag} {tag : MasterTag} {r : Restrictions}
    {time : Timestamp} {p : MasterTag → Prop}
    (htag : (rows.find? fun row => row.migrationId = tag.migrationId) = some tag)
    (h : ∀ m ∈ rows, p m) (hlike : p tag → p { tag with restrictions := r, updatedAt := time }) :
    ∀ m ∈ replaceFirst (fun row => row.migrationId = tag.migrationId)
      { tag with restrictions := r, updatedAt := time } rows, p m := by
  intro m hm
  rcases mem_replaceFirst hm with rfl | hm
  · exact hlike (h tag (List.mem_of_find?_eq_some htag))
  · exact h m hm

theorem Keyed.locks (h : ts.Keyed b) {tag : MasterTag} (r : Restrictions) (time : Timestamp)
    (htag : (ts.masterTags.find? fun row => row.migrationId = tag.migrationId) = some tag) :
    Keyed b { ts with
      masterTags := replaceFirst (fun row => row.migrationId = tag.migrationId)
        { tag with restrictions := r, updatedAt := time } ts.masterTags } :=
  { h with
    migrationIds := nodup_map_replaceFirst htag rfl h.migrationIds
    derived := forall_mem_relocked htag h.derived fun hp => hp }

theorem Keyed.copy (h : ts.Keyed b) {tag : ChildTag}
    (hnew : ∀ row ∈ ts.childTags, row.content ≠ tag.content) :
    Keyed b { ts with childTags := ts.childTags ++ [tag] } :=
  { h with contents := nodup_map_append h.contents hnew }

theorem Keyed.changed (h : ts.Keyed b) {tag : ChildTag} (changes : NameSet) (time : Timestamp)
    (htag : childTagIn ts.childTags tag.content = some tag) :
    Keyed b { ts with
      childTags := replaceFirst (fun t => t.content = tag.content) (tag.withChanges changes time)
        ts.childTags } :=
  { h with contents := nodup_map_replaceFirst htag rfl h.contents }

theorem Traced.template (h : ts.Traced b asked drawn) {t : Template} (hdrawn : drawn t.id)
    (hid : ∀ row ∈ ts.templates, row.id ≠ t.id)
    (hcourse : ∀ row ∈ ts.templates, row.courseId ≠ t.courseId) :
    Traced b asked drawn { ts with templates := ts.templates ++ [t] } :=
  { h.toKeyed.template t, h with
    templateIds := nodup_map_append h.templateIds hid
    templateCourses := nodup_map_append h.templateCourses hcourse
    followed := by
      intro s hs
      obtain ⟨row, hrow, hfollows⟩ := h.followed s hs
      exact ⟨row, List.mem_append_left _ hrow, hfollows⟩
    templatesDrawn := forall_mem_append h.templatesDrawn hdrawn }

theorem Traced.subscription (h : ts.Traced b asked drawn) {t : Template} {sub : Subscription}
    (hdrawn : drawn sub.id) (hid : ∀ row ∈ ts.subscriptions, row.id ≠ sub.id)
    (ht : t ∈ ts.templates) (hfollows : sub.templateId = t.id)
    (hother : sub.childCourseId ≠ t.courseId)
    (hnew : ∀ row ∈ ts.subscriptions, row.samePairing sub = false) :
    Traced b asked drawn { ts with subscriptions := ts.subscriptions ++ [sub] } :=
  { h with
    subscriptionIds := nodup_map_append h.subscriptionIds hid
    pairings := by
      refine nodup_map_append h.pairings ?_
      intro row hrow heq
      obtain ⟨htemplate, hchild⟩ := Prod.mk.inj heq
      have hdifferent := hnew row hrow
      unfold Subscription.samePairing at hdifferent
      rw [htemplate, hchild] at hdifferent
      simp at hdifferent
    followed := forall_mem_append h.followed ⟨t, ht, hfollows.symm, Ne.symm hother⟩
    copies := by
      intro c hc
      obtain ⟨s, hs, hcopied⟩ := h.copies c hc
      exact ⟨s, List.mem_append_left _ hs, hcopied⟩
    subscriptionsDrawn := forall_mem_append h.subscriptionsDrawn hdrawn }

theorem Traced.masterTag (h : ts.Traced b asked drawn) {t : Template} {tag : MasterTag}
    (ht : t ∈ ts.templates) (htemplate : tag.templateId = t.id)
    (hid : tag.migrationId = t.migrationId b.settings.marker tag.content)
    (hkind : tag.content.kind.allowedInBlueprint = true) (hasked : asked tag.content)
    (hnew : ∀ row ∈ ts.masterTags, row.migrationId ≠ tag.migrationId) :
    Traced b asked drawn { ts with masterTags := ts.masterTags ++ [tag] } :=
  { h.toKeyed.masterTag ht htemplate hid hnew, h with
    kinds := by
      refine forall_mem_append h.kinds ?_
      intro hfolder
      rw [hfolder] at hkind
      cases hkind
    copies := by
      intro c hc
      obtain ⟨s, hs, hours, m, hm, hcopied⟩ := h.copies c hc
      exact ⟨s, hs, hours, m, List.mem_append_left _ hm, hcopied⟩
    mastersAsked := forall_mem_append h.mastersAsked hasked }

/-- Of a master tag only its locks and the time are changed. -/
theorem Traced.locks (h : ts.Traced b asked drawn) {tag : MasterTag} (r : Restrictions)
    (time : Timestamp)
    (htag : (ts.masterTags.find? fun row => row.migrationId = tag.migrationId) = some tag) :
    Traced b asked drawn { ts with
      masterTags := replaceFirst (fun row => row.migrationId = tag.migrationId)
        { tag with restrictions := r, updatedAt := time } ts.masterTags } :=
  { h.toKeyed.locks r time htag, h with
    kinds := forall_mem_relocked htag h.kinds fun hp => hp
    copies := by
      intro c hc
      obtain ⟨s, hs, hours, m, hm, htemplate, hid, hkind⟩ := h.copies c hc
      have hstays : ∃ m' ∈ replaceFirst (fun row => row.migrationId = tag.migrationId)
          { tag with restrictions := r, updatedAt := time } ts.masterTags,
          (m'.templateId, m'.migrationId, m'.content) =
            (m.templateId, m.migrationId, m.content) := by
        refine exists_mem_replaceFirst (f := fun m => (m.templateId, m.migrationId, m.content))
          htag ?_ hm
        rfl
      obtain ⟨m', hm', hsame⟩ := hstays
      simp only [Prod.mk.injEq] at hsame
      obtain ⟨htemplate', hid', hcontent'⟩ := hsame
      refine ⟨s, hs, hours, m', hm', ?_, ?_, ?_⟩
      · rw [htemplate', htemplate]
      · rw [hid', hid]
      · rw [hcontent', hkind]
    mastersAsked := forall_mem_relocked htag h.mastersAsked fun hp => hp }

/-- Whether, within each template, the digests of different content that was asked for differ. -/
def Distinguishes (asked : ContentKey → Prop) (templates : List Template) : Prop :=
  ∀ t ∈ templates, ∀ k k', asked k → asked k' →
    Uuid.derived t.id k.assetName = Uuid.derived t.id k'.assetName → k = k'

theorem Traced.copy (h : ts.Traced b asked drawn) (hdistinct : Distinguishes asked ts.templates)
    {t : Template} {sub : Subscription} {master : ContentKey} {masterTag : MasterTag}
    {tag : ChildTag} (hsub : sub ∈ ts.subscriptions) (ht : t ∈ ts.templates)
    (hfollows : t.id = sub.templateId) (hasked : asked master) (hmaster : masterTag ∈ ts.masterTags)
    (hmasterId : masterTag.migrationId = t.migrationId b.settings.marker master)
    (hid : tag.migrationId = some (t.migrationId b.settings.marker master))
    (hkind : tag.content.kind = master.kind) (hsubscription : tag.subscriptionId = sub.id)
    (hchanges : tag.changes = ∅) (hnew : ∀ row ∈ ts.childTags, row.content ≠ tag.content)
    (honce : ∀ row ∈ ts.childTags, row.subscriptionId = sub.id →
      row.migrationId ≠ tag.migrationId) :
    Traced b asked drawn { ts with childTags := ts.childTags ++ [tag] } := by
  -- the master tag under the identifier belongs to the content, since digests differ
  obtain ⟨t', ht', htemplate, hderived⟩ := h.derived masterTag hmaster
  rw [hmasterId] at hderived
  obtain ⟨htemplates, hdigests⟩ := Template.migrationId_inj hderived
  rw [← htemplates] at hdigests
  have hcontent : master = masterTag.content :=
    hdistinct t ht master masterTag.content hasked (h.mastersAsked masterTag hmaster) hdigests
  exact
    { h.toKeyed.copy hnew, h with
      copies := by
        refine forall_mem_append h.copies ?_
        refine ⟨sub, hsub, hsubscription.symm, masterTag, hmaster, ?_, ?_, ?_⟩
        · rw [← htemplate, ← htemplates, hfollows]
        · rw [hid, hmasterId]
        · rw [hkind, hcontent]
      oneCopy := by
        refine nodup_map_append h.oneCopy ?_
        intro row hrow heq
        obtain ⟨hours, hsame⟩ := Prod.mk.inj heq
        exact honce row hrow (hours.trans hsubscription) hsame
      changes := by
        refine forall_mem_append h.changes ?_
        intro x hx
        rw [hchanges] at hx
        exact absurd hx (NameSet.not_mem_empty x) }

/-- Of a child tag only its changes and the time are changed. -/
theorem Traced.changed (h : ts.Traced b asked drawn) {tag : ChildTag} {changes : NameSet}
    (time : Timestamp)
    (hgoverned : ∀ x ∈ changes,
      x ∈ tag.changes ∨ x ∈ (b.registry tag.content.kind).allColumns ∨ x = manuallyDeleted)
    (htag : childTagIn ts.childTags tag.content = some tag) :
    Traced b asked drawn { ts with
      childTags := replaceFirst (fun t => t.content = tag.content) (tag.withChanges changes time)
        ts.childTags } := by
  have hheld : tag ∈ ts.childTags := List.mem_of_find?_eq_some htag
  exact
    { h.toKeyed.changed changes time htag, h with
      copies := by
        intro c hc
        rcases mem_replaceFirst hc with rfl | hc
        · exact h.copies tag hheld
        · exact h.copies c hc
      oneCopy := nodup_map_replaceFirst htag rfl h.oneCopy
      changes := by
        intro c hc x hx
        rcases mem_replaceFirst hc with rfl | hc
        · rcases hgoverned x hx with hx | hx
          · exact h.changes tag hheld x hx
          · exact hx
        · exact h.changes c hc x hx }

end Tables

/-- A change of keyed tables leaves keyed tables. -/
theorem Stored.Change.keyed {b : Rulebook} {asked : ContentKey → Prop} {new : Uuid → Prop}
    {ts : Tables} {st : Stored} (h : (Stored.of ts).Change b asked new st) (hkeyed : ts.Keyed b) :
    ∃ ts', st = .of ts' ∧ ts'.Keyed b := by
  cases h with
  | template hid hrows hcourse =>
    obtain rfl := Except.ok.inj hrows
    exact ⟨_, rfl, hkeyed.template _⟩
  | @subscription rows t sub hid ht hfollows hother hrows hpairing =>
    obtain rfl := Except.ok.inj hrows
    exact ⟨{ ts with subscriptions := ts.subscriptions ++ [sub] }, rfl, { hkeyed with }⟩
  | masterTag ht htemplate hid hkind hasked hrows hfree =>
    obtain rfl := Except.ok.inj hrows
    obtain ⟨templates, htemplates, ht⟩ := ht
    obtain rfl := Except.ok.inj htemplates
    exact ⟨_, rfl, hkeyed.masterTag ht htemplate hid hfree⟩
  | locks hrows htag =>
    obtain rfl := Except.ok.inj hrows
    exact ⟨_, rfl, hkeyed.locks _ _ htag⟩
  | copy hsub ht hfollows hasked hmaster hmasterId hid hkind hsubscription hchanges hrows hfree =>
    obtain rfl := Except.ok.inj hrows
    exact ⟨_, rfl, hkeyed.copy hfree⟩
  | changes hgoverned hset =>
    obtain ⟨rows, time, hrows, htag, rfl⟩ := hset
    obtain rfl := Except.ok.inj hrows
    exact ⟨_, rfl, hkeyed.changed _ time htag⟩

/-- A change of sound tables leaves sound tables, if new identifiers are not those that were drawn and
the digests of the content asked for differ. -/
theorem Stored.Change.traced {b : Rulebook} {asked : ContentKey → Prop} {new drawn : Uuid → Prop}
    {ts : Tables} {st : Stored} (h : (Stored.of ts).Change b asked new st)
    (htraced : ts.Traced b asked drawn) (hnew : ∀ id, new id → ¬ drawn id)
    (hdistinct : Tables.Distinguishes asked ts.templates) :
    ∃ ts', st = .of ts' ∧ ts'.Traced b asked fun id => drawn id ∨ new id := by
  have hbefore : ts.Traced b asked fun id => drawn id ∨ new id := htraced.mono fun _ h => .inl h
  cases h with
  | @template rows t hid hrows hcourse =>
    obtain rfl := Except.ok.inj hrows
    refine ⟨_, rfl, hbefore.template (.inr hid) ?_ hcourse⟩
    intro row hrow heq
    exact hnew t.id hid (heq ▸ htraced.templatesDrawn row hrow)
  | @subscription rows t sub hid ht hfollows hother hrows hpairing =>
    obtain rfl := Except.ok.inj hrows
    obtain ⟨templates, htemplates, ht⟩ := ht
    obtain rfl := Except.ok.inj htemplates
    refine ⟨_, rfl, hbefore.subscription (.inr hid) ?_ ht hfollows hother hpairing⟩
    intro row hrow heq
    exact hnew sub.id hid (heq ▸ htraced.subscriptionsDrawn row hrow)
  | masterTag ht htemplate hid hkind hasked hrows hfree =>
    obtain rfl := Except.ok.inj hrows
    obtain ⟨templates, htemplates, ht⟩ := ht
    obtain rfl := Except.ok.inj htemplates
    exact ⟨_, rfl, hbefore.masterTag ht htemplate hid hkind hasked hfree⟩
  | locks hrows htag =>
    obtain rfl := Except.ok.inj hrows
    exact ⟨_, rfl, hbefore.locks _ _ htag⟩
  | copy hsub ht hfollows hasked hmaster hmasterId hid hkind hsubscription hchanges hrows hfree
      honce =>
    obtain rfl := Except.ok.inj hrows
    obtain ⟨subscriptions, hsubscriptions, hsub⟩ := hsub
    obtain rfl := Except.ok.inj hsubscriptions
    obtain ⟨templates, htemplates, ht⟩ := ht
    obtain rfl := Except.ok.inj htemplates
    obtain ⟨masterTags, hmasterTags, hmaster⟩ := hmaster
    obtain rfl := Except.ok.inj hmasterTags
    exact ⟨_, rfl, hbefore.copy hdistinct hsub ht hfollows hasked hmaster hmasterId hid hkind
      hsubscription hchanges hfree honce⟩
  | changes hgoverned hset =>
    obtain ⟨rows, time, hrows, htag, rfl⟩ := hset
    obtain rfl := Except.ok.inj hrows
    exact ⟨_, rfl, hbefore.changed time hgoverned htag⟩

/-! ## Moves of a store -/

namespace Supply

/-- Whether an identifier was drawn. -/
def HasDrawn (p : Supply) (id : Uuid) : Prop := ∃ i, i < p.idsUsed ∧ p.ids i = id

/-- Whether the identifiers that were drawn are all different. -/
def Fresh (p : Supply) : Prop :=
  ∀ i j, i < p.idsUsed → j < p.idsUsed → p.ids i = p.ids j → i = j

variable {p p' : Supply}

theorem Fresh.of_later (h : p.Later p') (hfresh : p'.Fresh) : p.Fresh := by
  intro i j hi hj heq
  rw [← h.ids] at heq
  exact hfresh i j (Nat.lt_of_lt_of_le hi h.idsUsed) (Nat.lt_of_lt_of_le hj h.idsUsed) heq

/-- What is drawn from a supply that is fresh was not drawn before. -/
theorem Fresh.not_hasDrawn (h : p.Later p') (hfresh : p'.Fresh) {id : Uuid} (hnew : p.Drew p' id) :
    ¬ p.HasDrawn id := by
  rintro ⟨j, hj, rfl⟩
  obtain ⟨i, hi, hi', heq⟩ := hnew
  rw [← h.ids] at heq
  have hij := hfresh i j hi' (Nat.lt_of_lt_of_le hj h.idsUsed) heq
  omega

theorem hasDrawn_of_later (h : p.Later p') {id : Uuid} (hid : p.HasDrawn id ∨ p.Drew p' id) :
    p'.HasDrawn id := by
  rcases hid with ⟨i, hi, rfl⟩ | ⟨i, -, hi, rfl⟩
  · exact ⟨i, Nat.lt_of_lt_of_le hi h.idsUsed, by rw [h.ids]⟩
  · exact ⟨i, hi, by rw [h.ids]⟩

end Supply

namespace Store

variable {b : Rulebook} {asked : ContentKey → Prop} {s s' : Store}

/-- A store that holds keyed tables. -/
def Keyed (b : Rulebook) (s : Store) : Prop := ∃ ts, s.stored = .of ts ∧ ts.Keyed b

theorem Keyed.masterTags (h : s.Keyed b) : ∃ rows, s.stored.masterTags = .ok rows := by
  obtain ⟨ts, hstored, -⟩ := h
  rw [hstored]
  exact ⟨_, rfl⟩

theorem Moves.keyed (h : s.Moves b asked s') (hs : s.Keyed b) : s'.Keyed b := by
  induction h with
  | refl => exact hs
  | tail hmoves hmove ih =>
    obtain ⟨ts, hstored, hkeyed⟩ := ih
    rcases hmove.rows with hsame | ⟨-, hchange⟩
    · exact ⟨ts, hsame.trans hstored, hkeyed⟩
    · rw [hstored] at hchange
      exact hchange.keyed hkeyed

/-- A store that holds sound tables, whose identifiers come from its supply. -/
def Traced (b : Rulebook) (asked : ContentKey → Prop) (s : Store) : Prop :=
  ∃ ts, s.stored = .of ts ∧ ts.Traced b asked s.supply.HasDrawn

/-- Whether the digests of different content that was asked for differ within each template held. -/
def Distinguishes (asked : ContentKey → Prop) (s : Store) : Prop :=
  ∀ t, s.stored.HasTemplate t → ∀ k k', asked k → asked k' →
    Uuid.derived t.id k.assetName = Uuid.derived t.id k'.assetName → k = k'

theorem Move.traced (h : s.Move b asked s') (hfresh : s'.supply.Fresh)
    (hdistinct : s.Distinguishes asked) (hs : s.Traced b asked) : s'.Traced b asked := by
  obtain ⟨ts, hstored, htraced⟩ := hs
  rcases h.rows with hsame | ⟨-, hchange⟩
  · refine ⟨ts, hsame.trans hstored, htraced.mono ?_⟩
    intro id hid
    exact Supply.hasDrawn_of_later h.supply (.inl hid)
  · have hdigests : Tables.Distinguishes asked ts.templates := by
      intro t ht
      exact hdistinct t ⟨ts.templates, by rw [hstored]; rfl, ht⟩
    rw [hstored] at hchange
    obtain ⟨ts', hstored', htraced'⟩ := hchange.traced htraced
      (fun id hid => Supply.Fresh.not_hasDrawn h.supply hfresh hid) hdigests
    refine ⟨ts', hstored', htraced'.mono ?_⟩
    intro id hid
    exact Supply.hasDrawn_of_later h.supply hid

/-- Any number of moves leaves sound tables. What is asked of identifiers and digests is asked of the
store in the end only, which has drawn and holds all that there was before. -/
theorem Moves.traced (h : s.Moves b asked s') (hfresh : s'.supply.Fresh)
    (hdistinct : s'.Distinguishes asked) (hs : s.Traced b asked) : s'.Traced b asked := by
  induction h with
  | refl => exact hs
  | @tail s₁ s₂ hmoves hmove ih =>
    have hdistinct₁ : s₁.Distinguishes asked := by
      intro t ht
      exact hdistinct t (hmove.moves.hasTemplate ht)
    have hfresh₁ : s₁.supply.Fresh := .of_later hmove.supply hfresh
    exact hmove.traced hfresh hdistinct₁ (ih hfresh₁ hdistinct₁)

end Store

end CourseBlueprint
