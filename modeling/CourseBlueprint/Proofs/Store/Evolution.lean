import CourseBlueprint.Proofs.Store.Records

/-!
# How a store evolves

`Stored.Step` lists all changes of rows: a template, a subscription or a child tag is added where
there is none like it, a master tag is added or replaced, and the changes of a child tag are set.
Each operation of a store leads from what was held to what is held by such steps (`Store.Evolves`),
also when it fails; those that only look leave what is held as it was (`Store.Alike`). No step loses
a child tag (`Stored.Steps.childTag?`).
-/

namespace CourseBlueprint

/-! ## Steps -/

/-- One change of the rows that are held. -/
inductive Stored.Step (st : Stored) : Stored → Prop
  | template {rows : List Template} {t : Template} (hrows : st.templates = .ok rows)
      (hnew : ∀ row ∈ rows, row.courseId ≠ t.courseId) :
      Step st { st with templates := .ok (rows ++ [t]) }
  | subscription {rows : List Subscription} {t : Subscription} (hrows : st.subscriptions = .ok rows)
      (hnew : ∀ row ∈ rows, row.samePairing t = false) :
      Step st { st with subscriptions := .ok (rows ++ [t]) }
  | masterTag {rows : List MasterTag} {t : MasterTag} (hrows : st.masterTags = .ok rows) :
      Step st { st with
        masterTags := .ok (Tables.upsert (fun row => row.migrationId = t.migrationId) t rows) }
  | childTag {rows : List ChildTag} {t : ChildTag} (hrows : st.childTags = .ok rows)
      (hnew : Tables.childTagIn rows t.content = none) (hchanges : t.changes = ∅) :
      Step st (st.withChildTags (rows ++ [t]))
  | changes {tag : ChildTag} {changes : NameSet} {st' : Stored}
      (h : st.SetsChanges tag changes st') : Step st st'

/-- Any number of changes, one after the other. -/
inductive Stored.Steps (st : Stored) : Stored → Prop
  | refl : Steps st st
  | tail {st' st'' : Stored} (hs : Steps st st') (h : st'.Step st'') : Steps st st''

namespace Stored

variable {st st' st'' : Stored}

theorem Step.steps (h : st.Step st') : st.Steps st' := .tail .refl h

theorem Steps.trans (h : st.Steps st') (h' : st'.Steps st'') : st.Steps st'' := by
  induction h' with
  | refl => exact h
  | tail _ hstep ih => exact .tail ih hstep

/-- A step changes nothing of a child tag that is held but its changes and the time. -/
theorem Step.childTag? (h : st.Step st') {content : ContentKey} {tag : ChildTag}
    (htag : st.childTag? content = .ok (some tag)) :
    ∃ changes time, st'.childTag? content = .ok (some (tag.withChanges changes time)) := by
  have hsame : ∃ changes time,
      (Except.ok (some tag) : Result _) = .ok (some (tag.withChanges changes time)) :=
    ⟨tag.changes, tag.updatedAt, rfl⟩
  cases h with
  | template => exact htag ▸ hsame
  | subscription => exact htag ▸ hsame
  | masterTag => exact htag ▸ hsame
  | @childTag rows t hrows hnew =>
    obtain ⟨rows', hrows', hfind⟩ := Store.childTag?_eq_some htag
    rw [hrows] at hrows'
    obtain rfl := Except.ok.inj hrows'
    rw [Store.childTag?_withChildTags, Tables.childTagIn_append, hfind]
    exact hsame
  | @changes tag' changes _ hset =>
    obtain ⟨rows, time, hrows, hfind', rfl⟩ := hset
    obtain ⟨rows', hrows', hfind⟩ := Store.childTag?_eq_some htag
    rw [hrows] at hrows'
    obtain rfl := Except.ok.inj hrows'
    rw [Store.childTag?_withChildTags, Store.childTagIn_withChanges hfind']
    by_cases hcontent : content = tag'.content
    · rw [hcontent, hfind'] at hfind
      obtain rfl := Option.some.inj hfind
      rw [if_pos hcontent]
      exact ⟨changes, time, rfl⟩
    · rw [if_neg hcontent, hfind]
      exact hsame

/-- No run of steps loses a child tag or moves it to other content. -/
theorem Steps.childTag? (h : st.Steps st') {content : ContentKey} {tag : ChildTag}
    (htag : st.childTag? content = .ok (some tag)) :
    ∃ changes time, st'.childTag? content = .ok (some (tag.withChanges changes time)) := by
  induction h with
  | refl => exact ⟨tag.changes, tag.updatedAt, htag⟩
  | tail _ hstep ih =>
    obtain ⟨_, _, htag'⟩ := ih
    obtain ⟨changes, time, htag''⟩ := hstep.childTag? htag'
    exact ⟨changes, time, htag''⟩

/-- A step keeps the master tags readable. -/
theorem Step.masterTags (h : st.Step st') (hrows : ∃ rows, st.masterTags = .ok rows) :
    ∃ rows, st'.masterTags = .ok rows := by
  cases h with
  | template => exact hrows
  | subscription => exact hrows
  | masterTag => exact ⟨_, rfl⟩
  | childTag => exact hrows
  | changes hset =>
    obtain ⟨-, -, -, -, rfl⟩ := hset
    exact hrows

theorem Steps.masterTags (h : st.Steps st') (hrows : ∃ rows, st.masterTags = .ok rows) :
    ∃ rows, st'.masterTags = .ok rows := by
  induction h with
  | refl => exact hrows
  | tail _ hstep ih => exact hstep.masterTags ih

end Stored

/-- A store that is left by operations on another one. -/
structure Store.Evolves (s s' : Store) : Prop where
  supply : s.supply.Later s'.supply
  isOpen : s.isOpen = true → s'.isOpen = true
  steps : s.stored.Steps s'.stored

namespace Store

variable {α : Type} {s s' s'' : Store}

namespace Evolves

theorem refl (s : Store) : s.Evolves s := ⟨.refl _, id, .refl⟩

theorem trans (h : s.Evolves s') (h' : s'.Evolves s'') : s.Evolves s'' :=
  ⟨h.supply.trans h'.supply, fun hopen => h'.isOpen (h.isOpen hopen), h.steps.trans h'.steps⟩

theorem of_stored_eq (hsupply : s.supply.Later s'.supply)
    (hopen : s.isOpen = true → s'.isOpen = true) (hstored : s'.stored = s.stored) : s.Evolves s' :=
  ⟨hsupply, hopen, hstored ▸ .refl⟩

end Evolves

theorem Alike.evolves (h : s.Alike s') : s.Evolves s' :=
  .of_stored_eq (.of_eq h.supply) (fun hopen => h.isOpen ▸ hopen) h.stored

/-- What is seen is there. -/
theorem isOpen_of_seen {content : ContentKey} {tag : ChildTag}
    (h : s.seen.childTag? content = .ok (some tag)) :
    s.isOpen = true ∧ s.stored.childTag? content = .ok (some tag) := by
  cases hopen : s.isOpen with
  | true =>
    rw [seen_of_isOpen hopen] at h
    exact ⟨rfl, h⟩
  | false =>
    have hseen : s.seen = .of .empty := if_neg (by simp [hopen])
    rw [hseen] at h
    cases h

/-! ## Looking -/

variable {s₀ : Store}

/-- What leaves every store alike keeps any that evolved. -/
theorem keeps_evolves_of_alike {x : Action Store α} (h : ∀ s : Store, Action.Keeps s.Alike x) :
    Action.Keeps s₀.Evolves x := by
  refine Action.keeps_iff.2 fun s hs => ?_
  exact hs.trans (Action.keeps_iff.1 (h s) s (.refl s)).evolves

section Looking

variable {P : Store → Prop}

/-- What looking up master tags keeps, though it is noted in memory. -/
def KeptByLooking (P : Store → Prop) : Prop := ∀ ids, Action.Keeps P (masterTagsWith ids)

/-- Reading leaves a store as it is. -/
theorem keeps_of_run {x : Action Store α} {g : Store → Result α} (h : ∀ s, x.run s = (g s, s)) :
    Action.Keeps P x :=
  Action.keeps_iff.2 fun s hs => by
    rw [h]
    exact hs

theorem keeps_templates : Action.Keeps P templates := keeps_of_run run_templates

theorem keeps_subscriptions : Action.Keeps P subscriptions := keeps_of_run run_subscriptions

theorem keeps_masterTags : Action.Keeps P masterTags := keeps_of_run run_masterTags

theorem keeps_childTags : Action.Keeps P childTags := keeps_of_run run_childTags

theorem keeps_childTag? (content : ContentKey) : Action.Keeps P (childTag? content) :=
  keeps_of_run (run_childTag? content)

theorem keeps_templateOf? (course : Uuid) : Action.Keeps P (templateOf? course) :=
  .bind keeps_templates fun _ => .pure _

theorem keeps_template? (id : Uuid) : Action.Keeps P (template? id) :=
  .bind keeps_templates fun _ => .pure _

theorem keeps_subscription? (id : Uuid) : Action.Keeps P (subscription? id) :=
  .bind keeps_subscriptions fun _ => .pure _

theorem keeps_masterTagsOf (template : Uuid) : Action.Keeps P (masterTagsOf template) :=
  .bind keeps_masterTags fun _ => .pure _

theorem keeps_childTagsOf (subscription : Uuid) : Action.Keeps P (childTagsOf subscription) :=
  .bind keeps_childTags fun _ => .pure _

theorem KeptByLooking.masterTag? (hP : KeptByLooking P) (id : String) :
    Action.Keeps P (masterTag? id) := .bind (hP [id]) fun _ => .pure _

theorem KeptByLooking.restrictionsOf (hP : KeptByLooking P) (ids : List String)
    (template? : Option Uuid) : Action.Keeps P (restrictionsOf ids template?) := by
  unfold Store.restrictionsOf
  split
  · exact .pure _
  · exact .bind (hP ids) fun _ => .pure _

end Looking

/-! ## What every operation keeps -/

/-- What looking and working on child tags keep, whatever becomes of them. -/
structure KeptBySaving (P : Store → Prop) : Prop where
  looking : KeptByLooking P
  findOrCreateChildTag : ∀ subscription content migrationId,
    Action.Keeps P (findOrCreateChildTag subscription content migrationId)
  updateChildTag : ∀ {α : Type} (content : ContentKey) (update : ChildTag → α × Option ChildTag),
    RevisesChanges update → Action.Keeps P (updateChildTag content update)

/-- What every operation keeps, if the clock shows dates and the rows that are written are dated. -/
structure KeptByWriting (P : Store → Prop) : Prop extends KeptBySaving P where
  newId : Action.Keeps P newId
  now : Action.Triple P now (fun time s => P s ∧ time.IsDate) P
  insertTemplate : ∀ t : Template, t.IsDated → Action.Keeps P (insertTemplate t)
  insertSubscription : ∀ sub, Action.Keeps P (insertSubscription sub)
  saveMasterTag : ∀ tag : MasterTag, Action.Triple
    (fun s => P s ∧ (s.directory.isSome = true → tag.IsDated)) (saveMasterTag tag) (fun _ => P) P

section Writing

variable {P : Store → Prop}

theorem KeptBySaving.removeChanges (hP : KeptBySaving P) (content : ContentKey) (columns : NameSet) :
    Action.Keeps P (removeChanges content columns) :=
  .bind (hP.updateChildTag _ _ (revisesChanges_removal columns)) fun _ => .pure _

theorem KeptBySaving.mergeChanges (hP : KeptBySaving P) (content : ContentKey) (columns : NameSet) :
    Action.Keeps P (mergeChanges content columns) := by
  refine .bind (hP.updateChildTag _ _ (revisesChanges_merging columns)) fun added? => ?_
  split
  · exact .pure _
  · exact .pure _

theorem KeptByWriting.findOrCreateTemplate (hP : KeptByWriting P) (course : Uuid) :
    Action.Keeps P (findOrCreateTemplate course) := by
  refine .bind (keeps_templateOf? course) fun found => ?_
  split
  · exact .pure _
  · refine .bind hP.newId fun id => Action.Triple.bind hP.now fun time => ?_
    exact .under fun htime => hP.insertTemplate _ htime

theorem KeptByWriting.findOrCreateSubscription (hP : KeptByWriting P) (template child : Uuid) :
    Action.Keeps P (findOrCreateSubscription template child) := by
  refine .bind hP.newId fun id => .bind keeps_subscriptions fun found => ?_
  split
  · exact .pure _
  · exact hP.insertSubscription _

end Writing

/-! ## Evolving -/

/-- Looking up master tags leaves a directory as it is, and notes the look-up in memory. -/
theorem alike_masterTagsWith (ids : List String) : Action.Keeps s₀.Alike (masterTagsWith ids) := by
  refine Action.keeps_iff.2 fun s hs => hs.trans ?_
  obtain ⟨m | d, p⟩ := s
  · exact ⟨rfl, rfl, rfl⟩
  · have hplace : ((Directory.masterTagsOf ids).run d).2 = d := by
      rw [Directory.masterTagsOf, Action.run_bind, Directory.masterTags, Directory.run_rows]
      cases d.read Directory.masterTagTable with
      | error e => rfl
      | ok rows => rfl
    rw [masterTagsWith, run_onPlace_directory, hplace]
    exact .refl _

theorem evolves_masterTagsWith (ids : List String) : Action.Keeps s₀.Evolves (masterTagsWith ids) :=
  keeps_evolves_of_alike fun _ => alike_masterTagsWith ids

theorem alike_masterTag? (id : String) : Action.Keeps s₀.Alike (masterTag? id) :=
  KeptByLooking.masterTag? alike_masterTagsWith id

/-! ## Writing -/

theorem evolves_newId : Action.Keeps s₀.Evolves newId :=
  Action.keeps_iff.2 fun s hs => hs.trans (.of_stored_eq (later_afterId s) id rfl)

theorem evolves_afterTime (s : Store) : s.Evolves s.afterTime :=
  .of_stored_eq (later_afterTime s) id rfl

section Clock

variable (hclock : s₀.supply.ShowsDates)
include hclock

/-- What leads from any store with a clock to one that it evolves to keeps any that evolved. -/
theorem keeps_evolves_of_run {x : Action Store α}
    (h : ∀ s r s', s.supply.ShowsDates → x.run s = (r, s') → s.Evolves s') :
    Action.Keeps s₀.Evolves x :=
  Action.keeps_iff.2 fun s hs =>
    hs.trans (h s _ _ (hs.supply.showsDates hclock) (Prod.eta (x.run s)).symm)

/-- A reading of the clock is a date. -/
theorem triple_now :
    Action.Triple s₀.Evolves now (fun time s => s₀.Evolves s ∧ time.IsDate) s₀.Evolves :=
  fun s hs => ⟨hs.trans (evolves_afterTime s), hs.supply.showsDates hclock _⟩

end Clock

/-- What adds a row unless there is one like it leaves the rows that there were, or has added it. -/
theorem Performed.of_insertUnless {shelf : Shelf α} {test : α → Bool} {row : α} {r : Result α}
    (h : Performed s (shelf.revise (Tables.insertUnless test row)) r s') :
    s'.stored = s.stored ∨ s'.isOpen = true ∧ ∃ rows, shelf.rows s.stored = .ok rows ∧
      (∀ a ∈ rows, test a = false) ∧ s'.stored = shelf.put (rows ++ [row]) s.stored := by
  rcases h.ends with ⟨-, -, hstored⟩ | ⟨a, hf, -, hopen⟩
  · exact .inl hstored
  · unfold Shelf.revise at hf
    cases hrows : shelf.rows s.stored with
    | error e => rw [hrows] at hf; cases hf
    | ok rows =>
      rw [hrows] at hf
      obtain ⟨-, hstored⟩ := Prod.mk.inj (Except.ok.inj hf)
      unfold Tables.insertUnless at hstored
      cases hfind : rows.find? test with
      | some found =>
        rw [hfind] at hstored
        exact .inl hstored.symm
      | none =>
        rw [hfind] at hstored
        refine .inr ⟨hopen, rows, rfl, fun a ha => ?_, hstored.symm⟩
        exact Bool.eq_false_iff.2 (List.find?_eq_none.1 hfind a ha)

theorem Performed.steps_of_insertUnless {shelf : Shelf α} {test : α → Bool} {row : α} {r : Result α}
    (h : Performed s (shelf.revise (Tables.insertUnless test row)) r s')
    (hstep : ∀ rows, shelf.rows s.stored = .ok rows → (∀ a ∈ rows, test a = false) →
      s.stored.Step (shelf.put (rows ++ [row]) s.stored)) : s.Evolves s' := by
  refine ⟨.of_eq h.supply, h.isOpen, ?_⟩
  rcases h.of_insertUnless with hstored | ⟨-, rows, hrows, hnew, hstored⟩
  · rw [hstored]
    exact .refl
  · rw [hstored]
    exact Stored.Step.steps (hstep rows hrows hnew)

theorem evolves_insertTemplate {t : Template} (ht : t.IsDated) :
    Action.Keeps s₀.Evolves (insertTemplate t) :=
  Action.keeps_iff.2 fun s hs => hs.trans <|
    (insertTemplate_performed ht (Prod.eta ((insertTemplate t).run s)).symm).steps_of_insertUnless
      fun _ hrows hnew => .template hrows fun row hrow => of_decide_eq_false (hnew row hrow)

theorem evolves_insertSubscription (t : Subscription) :
    Action.Keeps s₀.Evolves (insertSubscription t) :=
  Action.keeps_iff.2 fun s hs => hs.trans <|
    (insertSubscription_performed (Prod.eta ((insertSubscription t).run s)).symm).steps_of_insertUnless
      fun _ hrows hnew => .subscription hrows hnew

/-- Saving a master tag fails without an effect, or has added it or put it in the place of the first
one with its migration identifier. -/
theorem of_saveMasterTag {tag : MasterTag} {r : Result Unit}
    (hdated : s.directory.isSome = true → tag.IsDated)
    (h : (saveMasterTag tag).run s = (r, s')) :
    s'.supply = s.supply ∧ (s.isOpen = true → s'.isOpen = true) ∧
      ((∃ e, r = .error e) ∧ s'.stored = s.stored ∨
        r = .ok () ∧ s'.isOpen = true ∧ ∃ rows, s.stored.masterTags = .ok rows ∧
          s'.stored = { s.stored with
            masterTags := .ok (Tables.upsert (fun row => row.migrationId = tag.migrationId) tag
              rows) }) := by
  have hperformed := saveMasterTag_performed hdated h
  refine ⟨hperformed.supply, hperformed.isOpen, ?_⟩
  rcases hperformed.ends with ⟨e, rfl, hstored⟩ | ⟨a, hf, rfl, hopen⟩
  · exact .inl ⟨⟨e, rfl⟩, hstored⟩
  · unfold Shelf.revise at hf
    cases hrows : masterTagShelf.rows s.stored with
    | error e => rw [hrows] at hf; cases hf
    | ok rows =>
      rw [hrows] at hf
      obtain ⟨-, hstored⟩ := Prod.mk.inj (Except.ok.inj hf)
      exact .inr ⟨rfl, hopen, rows, hrows, hstored.symm⟩

/-- Saving a master tag is one step, or none. -/
theorem evolves_of_saveMasterTag {t : MasterTag} {r : Result Unit}
    (ht : s.directory.isSome = true → t.IsDated) (h : (saveMasterTag t).run s = (r, s')) :
    s.Evolves s' ∧ s'.stored.childTags = s.stored.childTags ∧
      (r = .ok () → s'.isOpen = true ∧ ∃ rows, s'.stored.masterTags = .ok rows) := by
  obtain ⟨hsupply, hopen, hends⟩ := of_saveMasterTag ht h
  rcases hends with ⟨⟨e, rfl⟩, hstored⟩ | ⟨rfl, hopen', rows, hrows, hstored⟩
  · exact ⟨.of_stored_eq (.of_eq hsupply) hopen hstored, by rw [hstored], nofun⟩
  · rw [hstored]
    refine ⟨⟨.of_eq hsupply, hopen, ?_⟩, rfl, fun _ => ⟨hopen', _, rfl⟩⟩
    rw [hstored]
    exact Stored.Step.steps (.masterTag hrows)

theorem FoundOrCreated.evolves {subscription : Uuid} {content : ContentKey}
    {migrationId : Option String} {r : Result ChildTag}
    (h : FoundOrCreated s subscription content migrationId r s') : s.Evolves s' := by
  refine ⟨h.supply, h.isOpen, ?_⟩
  rcases h.ends with ⟨-, -, hstored⟩ | ⟨tag, -, -, -, hstored | ⟨rows, hrows, hnone, -, hcontent, -,
    hchanges, hstored⟩⟩
  · exact hstored ▸ .refl
  · exact hstored ▸ .refl
  · rw [hstored]
    exact Stored.Step.steps (.childTag hrows (hcontent ▸ hnone) hchanges)

theorem Updated.evolves {content : ContentKey} {update : ChildTag → α × Option ChildTag}
    (hupdate : RevisesChanges update) {r : Result (Option α)}
    (h : Updated s content update r s') : s.Evolves s' := by
  refine ⟨h.supply, h.isOpen, ?_⟩
  rcases h.ends with ⟨-, -, hstored⟩ | ⟨-, rows, hrows, hends⟩
  · exact hstored ▸ .refl
  · split at hends
    · exact hends.2 ▸ .refl
    · next tag hfind =>
      obtain rfl := Tables.content_of_childTagIn hfind
      obtain ⟨-, hends⟩ := hends
      split at hends
      · exact hends ▸ .refl
      · next tag' hnew =>
        obtain ⟨changes, rfl⟩ := hupdate tag tag' hnew
        obtain ⟨time, hstored⟩ := hends
        exact Stored.Step.steps (.changes ⟨rows, time, hrows, hfind, hstored⟩)

section Clock

variable (hclock : s₀.supply.ShowsDates)
include hclock

/-- Every operation leads a store along steps. -/
theorem keptByWriting_evolves : KeptByWriting s₀.Evolves where
  looking := evolves_masterTagsWith
  findOrCreateChildTag _ _ _ :=
    keeps_evolves_of_run hclock fun _ _ _ hs h => (findOrCreateChildTag_spec hs h).evolves
  updateChildTag _ _ hupdate :=
    keeps_evolves_of_run hclock fun _ _ _ hs h => (updateChildTag_spec hupdate hs h).evolves hupdate
  newId := evolves_newId
  now := triple_now hclock
  insertTemplate _ ht := evolves_insertTemplate ht
  insertSubscription sub := evolves_insertSubscription sub
  saveMasterTag _ :=
    Action.triple_iff.2 fun _ hs => hs.1.trans (evolves_of_saveMasterTag hs.2 (Prod.eta _).symm).1

end Clock

end Store

end CourseBlueprint
