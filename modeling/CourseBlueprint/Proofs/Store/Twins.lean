import Mathlib.Data.List.Nodup
import CourseBlueprint.Proofs.Store.Soundness

/-!
# Tables in memory and in a directory

What a store that works answers and holds after an operation depends on its rows and its supply only
(`Store.Determined`), and not on where the rows are. So two stores with the same rows and the same
supply, one in memory and one in a data directory, stay alike under any operations and answer them
alike (`memory_directory_alike`).
-/

namespace CourseBlueprint

/-! ## Contents -/

/-- The rows of a store, and what it draws from. -/
structure Contents where
  supply : Supply
  tables : Tables

/-- The clock shows dates, and there is one master tag at most under a migration identifier. -/
structure Contents.Good (c : Contents) : Prop where
  clock : c.supply.ShowsDates
  migrationIds : (c.tables.masterTags.map MasterTag.migrationId).Nodup

namespace Store

variable {α β : Type} {s t s' t' : Store} {c c' : Contents}

/-- A store that works, with the given contents, all of which it shows. -/
structure Holds (s : Store) (c : Contents) : Prop where
  works : s.Works
  shown : s.seen = s.stored
  supply : s.supply = c.supply
  stored : s.stored = .of c.tables

theorem Holds.seen (h : s.Holds c) : s.seen = .of c.tables := by rw [h.shown, h.stored]

/-- An operation whose answer and effect depend on the contents only. -/
def Determined (P : α → Prop) (x : Action Store α) : Prop :=
  ∀ c : Contents, c.Good → ∃ a, P a ∧ ∃ c' : Contents, c'.Good ∧
    ∀ s : Store, s.Holds c → ∃ s' : Store, x.run s = (.ok a, s') ∧ s'.Holds c'

variable {P : α → Prop} {Q : β → Prop}

theorem Determined.bind {x : Action Store α} {f : α → Action Store β} (hx : Determined P x)
    (hf : ∀ a, P a → Determined Q (f a)) : Determined Q (x >>= f) := by
  intro c hc
  obtain ⟨a, ha, c₁, hc₁, hx⟩ := hx c hc
  obtain ⟨b, hb, c₂, hc₂, hf⟩ := hf a ha c₁ hc₁
  refine ⟨b, hb, c₂, hc₂, fun s hs => ?_⟩
  obtain ⟨s₁, hrun₁, hs₁⟩ := hx s hs
  obtain ⟨s₂, hrun₂, hs₂⟩ := hf s₁ hs₁
  exact ⟨s₂, by rw [Action.run_bind_ok hrun₁, hrun₂], hs₂⟩

theorem Determined.pure {a : α} (h : P a) : Determined P (Pure.pure a) :=
  fun c hc => ⟨a, h, c, hc, fun s hs => ⟨s, rfl, hs⟩⟩

/-! ## New identifiers, times and rows -/

theorem determined_newId : Determined (fun _ => True) newId := fun c hc =>
  ⟨_, trivial, ⟨{ c.supply with idsUsed := c.supply.idsUsed + 1 }, c.tables⟩,
    ⟨hc.clock, hc.migrationIds⟩, fun s hs => ⟨s.afterId, by rw [run_newId, hs.supply],
      hs.works, hs.shown, by rw [← hs.supply]; rfl, hs.stored⟩⟩

theorem determined_now : Determined Timestamp.IsDate now := fun c hc =>
  ⟨_, hc.clock _, ⟨{ c.supply with timesUsed := c.supply.timesUsed + 1 }, c.tables⟩,
    ⟨hc.clock, hc.migrationIds⟩, fun s hs => ⟨s.afterTime, by rw [run_now, hs.supply],
      hs.works, hs.shown, by rw [← hs.supply]; rfl, hs.stored⟩⟩

/-- What shows a part of what is seen. -/
theorem determined_of_seen {x : Action Store α} {g : Stored → Result α} {h : Tables → α}
    (hx : ∀ s, x.run s = (g s.seen, s)) (hg : ∀ ts, g (.of ts) = .ok (h ts)) :
    Determined (fun _ => True) x := fun c hc =>
  ⟨h c.tables, trivial, c, hc, fun s hs => ⟨s, by rw [hx, hs.seen, hg], hs⟩⟩

theorem determined_templates : Determined (fun _ => True) templates :=
  determined_of_seen (g := Stored.templates) run_templates fun _ => rfl

theorem determined_subscriptions : Determined (fun _ => True) subscriptions :=
  determined_of_seen (g := Stored.subscriptions) run_subscriptions fun _ => rfl

theorem determined_masterTags : Determined (fun _ => True) masterTags :=
  determined_of_seen (g := Stored.masterTags) run_masterTags fun _ => rfl

theorem determined_childTags : Determined (fun _ => True) childTags :=
  determined_of_seen (g := Stored.childTags) run_childTags fun _ => rfl

theorem determined_childTag? (content : ContentKey) :
    Determined (fun _ => True) (childTag? content) :=
  determined_of_seen (g := fun st => st.childTag? content) (run_childTag? content) fun _ => rfl

/-- What performs a function that has an answer for the rows that are held. Where writing works it does
not fail, and the place of the rows is there afterwards. -/
theorem Holds.run_performed (hs : s.Holds c) {x : Action Store α} {f : Stored → Result (α × Stored)}
    {a : α} {ts : Tables} (hx : ∀ r s', x.run s = (r, s') → Performed s f r s')
    (hf : f (.of c.tables) = .ok (a, .of ts)) :
    ∃ s', x.run s = (.ok a, s') ∧ s'.Holds ⟨c.supply, ts⟩ := by
  have hperformed := hx _ _ (Prod.eta (x.run s)).symm
  obtain ⟨hworks, hfails⟩ := hperformed.works hs.works
  rw [hs.stored, hf] at hfails
  rcases hperformed.ends with ⟨e, he, -⟩ | ⟨a', hdone, hr, hopen⟩
  · cases hfails e he
  · rw [hs.stored, hf] at hdone
    obtain ⟨rfl, hstored⟩ := Prod.mk.inj (Except.ok.inj hdone)
    exact ⟨_, Prod.ext hr rfl, hworks, seen_of_isOpen hopen, hperformed.supply.trans hs.supply,
      hstored.symm⟩

theorem determined_of_performed {x : Action Store α} {f : Stored → Result (α × Stored)}
    (hx : ∀ s r s', x.run s = (r, s') → Performed s f r s')
    (hf : ∀ ts, (ts.masterTags.map MasterTag.migrationId).Nodup → ∃ a ts',
      f (.of ts) = .ok (a, .of ts') ∧ (ts'.masterTags.map MasterTag.migrationId).Nodup) :
    Determined (fun _ => True) x := by
  intro c hc
  obtain ⟨a, ts, hanswer, hnodup⟩ := hf c.tables hc.migrationIds
  exact ⟨a, trivial, ⟨c.supply, ts⟩, ⟨hc.clock, hnodup⟩, fun s hs =>
    hs.run_performed (hx s) hanswer⟩

/-! ## Writing -/

/-- How a shelf is found in tables: `held` are its rows, and `place` puts others in their place. -/
structure Shelf.Fits (shelf : Shelf α) (held : Tables → List α)
    (place : List α → Tables → Tables) : Prop where
  rows_of : ∀ ts, shelf.rows (.of ts) = .ok (held ts)
  put_of : ∀ new ts, shelf.put new (.of ts) = .of (place new ts)

section Shelves

variable {shelf : Shelf α} {held : Tables → List α} {place : List α → Tables → Tables}

/-- Revising the rows of a shelf has an answer for all tables. -/
theorem Shelf.Fits.revise_of (h : shelf.Fits held place) (f : List α → β × Option (List α))
    (ts : Tables) : shelf.revise f (.of ts) =
      .ok ((f (held ts)).1, .of (((f (held ts)).2.map (place · ts)).getD ts)) := by
  rw [Shelf.revise, h.rows_of]
  cases hnew : (f (held ts)).2 with
  | none => simp [Except.map, hnew]
  | some new => simp [Except.map, hnew, h.put_of]

/-- Revising the rows of a shelf without master tags leaves these as they are. -/
theorem Shelf.Fits.determined {x : Action Store β} {f : List α → β × Option (List α)}
    (h : shelf.Fits held place) (hother : ∀ new ts, (place new ts).masterTags = ts.masterTags)
    (hx : ∀ s r s', x.run s = (r, s') → Performed s (shelf.revise f) r s') :
    Determined (fun _ => True) x := by
  refine determined_of_performed hx fun ts hnodup => ⟨_, _, h.revise_of f ts, ?_⟩
  cases (f (held ts)).2 with
  | none => exact hnodup
  | some new =>
    show ((place new ts).masterTags.map _).Nodup
    rw [hother]
    exact hnodup

end Shelves

theorem templateShelf_fits :
    templateShelf.Fits Tables.templates fun rows ts => { ts with templates := rows } :=
  ⟨fun _ => rfl, fun _ _ => rfl⟩

theorem subscriptionShelf_fits :
    subscriptionShelf.Fits Tables.subscriptions fun rows ts => { ts with subscriptions := rows } :=
  ⟨fun _ => rfl, fun _ _ => rfl⟩

theorem masterTagShelf_fits :
    masterTagShelf.Fits Tables.masterTags fun rows ts => { ts with masterTags := rows } :=
  ⟨fun _ => rfl, fun _ _ => rfl⟩

theorem childTagShelf_fits :
    childTagShelf.Fits Tables.childTags fun rows ts => { ts with childTags := rows } :=
  ⟨fun _ => rfl, fun _ _ => rfl⟩

theorem determined_insertTemplate {t : Template} (ht : t.IsDated) :
    Determined (fun _ => True) (insertTemplate t) :=
  templateShelf_fits.determined (fun _ _ => rfl) fun _ _ _ => insertTemplate_performed ht

theorem determined_insertSubscription (t : Subscription) :
    Determined (fun _ => True) (insertSubscription t) :=
  subscriptionShelf_fits.determined (fun _ _ => rfl) fun _ _ _ => insertSubscription_performed

theorem determined_insertChildTag {t : ChildTag} (ht : t.IsDated) :
    Determined (fun _ => True) (insertChildTag t) :=
  childTagShelf_fits.determined (fun _ _ => rfl) fun _ _ _ => insertChildTag_performed ht

theorem determined_updateChildTag (content : ContentKey) {update : ChildTag → α × Option ChildTag}
    (hupdate : RevisesChanges update) :
    Determined (fun _ => True) (updateChildTag content update) :=
  determined_now.bind fun _ htime => childTagShelf_fits.determined (fun _ _ => rfl)
    fun _ _ _ => updateChildTag_performed (hupdate.isDated_stamped htime)

/-- Saving a master tag keeps one at most under each migration identifier. -/
theorem determined_saveMasterTag {t : MasterTag} (ht : t.IsDated) :
    Determined (fun _ => True) (saveMasterTag t) :=
  determined_of_performed (fun _ _ _ => saveMasterTag_performed fun _ => ht) fun ts hnodup =>
    ⟨_, _, masterTagShelf_fits.revise_of _ ts, Tables.nodup_map_upsert hnodup⟩

/-! ## Looking up and recording -/

theorem determined_templateOf? (course : Uuid) : Determined (fun _ => True) (templateOf? course) :=
  determined_templates.bind fun _ _ => .pure trivial

theorem determined_template? (id : Uuid) : Determined (fun _ => True) (template? id) :=
  determined_templates.bind fun _ _ => .pure trivial

theorem determined_findOrCreateTemplate (course : Uuid) :
    Determined (fun _ => True) (findOrCreateTemplate course) := by
  refine (determined_templateOf? course).bind fun found? _ => ?_
  cases found? with
  | some t => exact .pure trivial
  | none =>
    exact determined_newId.bind fun _ _ => determined_now.bind fun _ htime =>
      determined_insertTemplate htime

theorem determined_subscription? (id : Uuid) : Determined (fun _ => True) (subscription? id) :=
  determined_subscriptions.bind fun _ _ => .pure trivial

theorem determined_findOrCreateSubscription (template childCourse : Uuid) :
    Determined (fun _ => True) (findOrCreateSubscription template childCourse) := by
  refine determined_newId.bind fun id _ => determined_subscriptions.bind fun rows _ => ?_
  cases rows.find? fun s => s.samePairing ⟨id, template, childCourse⟩ with
  | some s => exact .pure trivial
  | none => exact determined_insertSubscription _

theorem determined_masterTagsOf (template : Uuid) :
    Determined (fun _ => True) (masterTagsOf template) :=
  determined_masterTags.bind fun _ _ => .pure trivial

theorem determined_findOrCreateChildTag (subscription : Uuid) (content : ContentKey)
    (migrationId : Option String) :
    Determined (fun _ => True) (findOrCreateChildTag subscription content migrationId) := by
  refine (determined_childTag? content).bind fun found? _ => ?_
  cases found? with
  | some t => exact .pure trivial
  | none =>
    exact determined_newId.bind fun _ _ => determined_now.bind fun _ htime =>
      determined_insertChildTag ⟨htime, htime⟩

theorem determined_mergeChanges (content : ContentKey) (columns : NameSet) :
    Determined (fun _ => True) (mergeChanges content columns) := by
  refine (determined_updateChildTag content (revisesChanges_merging columns)).bind fun added? _ => ?_
  cases added? with
  | none => exact .pure trivial
  | some added => exact .pure trivial

theorem determined_removeChanges (content : ContentKey) (columns : NameSet) :
    Determined (fun _ => True) (removeChanges content columns) :=
  (determined_updateChildTag content (revisesChanges_removal columns)).bind fun _ _ => .pure trivial

theorem determined_childTagsOf (subscription : Uuid) :
    Determined (fun _ => True) (childTagsOf subscription) :=
  determined_childTags.bind fun _ _ => .pure trivial

/-! ## Master tags by migration identifier -/

/-- The rows of tables that have one of some migration identifiers, in any order. In memory one is
there as often as its identifier is asked for, and in a directory once. -/
structure Selects (ts : Tables) (ids : List String) (tags : List MasterTag) : Prop where
  mem_iff : ∀ t, t ∈ tags ↔ t ∈ ts.masterTags ∧ t.migrationId ∈ ids
  nodup : ids.Nodup → tags.Nodup

variable {ts : Tables} {ids : List String} {tags tags' : List MasterTag}

theorem Selects.perm (h : Selects ts ids tags) (h' : Selects ts ids tags') (hids : ids.Nodup) :
    tags.Perm tags' :=
  (List.perm_ext_iff_of_nodup (h.nodup hids) (h'.nodup hids)).2 fun t => by
    rw [h.mem_iff, h'.mem_iff]

/-- Of one migration identifier the first that is selected is the one there is. -/
theorem Selects.head?_eq {id : String} (h : Selects ts [id] tags)
    (hnodup : (ts.masterTags.map MasterTag.migrationId).Nodup) :
    tags.head? = ts.masterTags.find? fun t => t.migrationId = id := by
  cases tags with
  | nil =>
    symm
    refine List.find?_eq_none.2 fun t ht hid => ?_
    have hmem := (h.mem_iff t).2 ⟨ht, List.mem_singleton.2 (of_decide_eq_true hid)⟩
    exact absurd hmem List.not_mem_nil
  | cons t rest =>
    obtain ⟨ht, hid⟩ := (h.mem_iff t).1 List.mem_cons_self
    exact ((Tables.find?_eq_some_iff hnodup).2 ⟨ht, List.mem_singleton.1 hid⟩).symm

theorem selects_filterMap (hnodup : (ts.masterTags.map MasterTag.migrationId).Nodup) :
    Selects ts ids (ids.filterMap fun id => ts.masterTags.find? fun t => t.migrationId = id) where
  mem_iff := by
    intro t
    rw [List.mem_filterMap]
    constructor
    · rintro ⟨id, hid, hfind⟩
      obtain ⟨ht, rfl⟩ := (Tables.find?_eq_some_iff hnodup).1 hfind
      exact ⟨ht, hid⟩
    · rintro ⟨ht, hid⟩
      exact ⟨t.migrationId, hid, (Tables.find?_eq_some_iff hnodup).2 ⟨ht, rfl⟩⟩
  nodup := by
    refine fun hids => hids.filterMap fun id id' t h h' => ?_
    rw [← ((Tables.find?_eq_some_iff hnodup).1 h).2, ← ((Tables.find?_eq_some_iff hnodup).1 h').2]

theorem selects_filter (hnodup : (ts.masterTags.map MasterTag.migrationId).Nodup) :
    Selects ts ids (ts.masterTags.filter fun t => decide (t.migrationId ∈ ids)) where
  mem_iff := by
    intro t
    rw [List.mem_filter, decide_eq_true_iff]
  nodup := fun _ => (List.Nodup.of_map _ hnodup).filter _

/-- Looking up master tags changes nothing but the look-ups that are noted in memory. -/
theorem Holds.run_masterTagsWith (hs : s.Holds c) (hc : c.Good) (ids : List String) :
    ∃ tags s', (masterTagsWith ids).run s = (.ok tags, s') ∧ s'.Holds c ∧
      Selects c.tables ids tags := by
  obtain ⟨m | d, p⟩ := s
  · have hrows : m.tables.masterTags = c.tables.masterTags :=
      Except.ok.inj (congrArg Stored.masterTags hs.stored)
    refine ⟨_, ⟨.memory { m with lookups := m.lookups ++ [ids] }, p⟩, rfl,
      ⟨hs.works, rfl, hs.supply, hs.stored⟩, ?_⟩
    show Selects _ _ (ids.filterMap fun id => m.tables.masterTags.find? _)
    rw [hrows]
    exact selects_filterMap hc.migrationIds
  · have hread : d.read Directory.masterTagTable = .ok c.tables.masterTags := by
      have hrun := run_masterTags ⟨.directory d, p⟩
      rw [hs.seen, masterTags, run_onPlace_directory, Directory.masterTags, Directory.run_rows] at hrun
      exact congrArg Prod.fst hrun
    refine ⟨_, ⟨.directory d, p⟩, ?_, hs, selects_filter hc.migrationIds⟩
    rw [masterTagsWith, run_onPlace_directory, Directory.masterTagsOf, Directory.masterTags,
      Action.run_bind, Directory.run_rows, hread]
    rfl

theorem determined_masterTag? (migrationId : String) :
    Determined (fun _ => True) (masterTag? migrationId) := by
  refine fun c hc => ⟨c.tables.masterTags.find? fun t => t.migrationId = migrationId, trivial, c, hc,
    fun s hs => ?_⟩
  obtain ⟨tags, s', hrun, hs', htags⟩ := hs.run_masterTagsWith hc [migrationId]
  exact ⟨s', by rw [masterTag?, Action.run_bind_ok hrun, Action.run_pure,
    htags.head?_eq hc.migrationIds], hs'⟩

/-- Restrictions in any order, of the same migration identifiers. -/
structure SameRestrictions (ids : List String) (rs rs' : List (String × Restrictions)) : Prop where
  mem_iff : ∀ r, r ∈ rs ↔ r ∈ rs'
  perm : ids.Nodup → rs.Perm rs'

/-- The restrictions of several migration identifiers are the same for the same contents, but for their
order. -/
theorem Holds.run_restrictionsOf (hs : s.Holds c) (ht : t.Holds c) (hc : c.Good) (ids : List String)
    (template? : Option Uuid) :
    ∃ rs rs' s' t', (restrictionsOf ids template?).run s = (.ok rs, s') ∧
      (restrictionsOf ids template?).run t = (.ok rs', t') ∧ s'.Holds c ∧ t'.Holds c ∧
      SameRestrictions ids rs rs' := by
  obtain ⟨tags, s', hrun, hs', htags⟩ := hs.run_masterTagsWith hc ids
  obtain ⟨tags', t', hrun', ht', htags'⟩ := ht.run_masterTagsWith hc ids
  rw [restrictionsOf]
  split
  · exact ⟨[], [], s, t, rfl, rfl, hs, ht, fun _ => .rfl, fun _ => .refl _⟩
  · refine ⟨_, _, s', t', Action.run_bind_ok hrun, Action.run_bind_ok hrun', hs', ht', fun r => ?_,
      fun hids => ((htags.perm htags' hids).filter _).map _⟩
    simp only [List.mem_map, List.mem_filter, htags.mem_iff, htags'.mem_iff]

end Store

/-! ## Operations -/

/-- What the rules of saving and the commands ask of a store. -/
inductive Operation where
  | templateOf (course : Uuid)
  | template (id : Uuid)
  | findOrCreateTemplate (course : Uuid)
  | subscription (id : Uuid)
  | findOrCreateSubscription (templateId childCourse : Uuid)
  | masterTag (migrationId : String)
  | restrictionsOf (ids : List String) (template? : Option Uuid)
  | saveMasterTag (tag : MasterTag)
  | masterTagsOf (templateId : Uuid)
  | childTag (content : ContentKey)
  | findOrCreateChildTag (subscriptionId : Uuid) (content : ContentKey) (migrationId : Option String)
  | mergeChanges (content : ContentKey) (columns : NameSet)
  | removeChanges (content : ContentKey) (columns : NameSet)
  | childTagsOf (subscriptionId : Uuid)

namespace Operation

/-- What an operation answers with. -/
def Answer : Operation → Type
  | templateOf _ => Option Template
  | template _ => Option Template
  | findOrCreateTemplate _ => Template
  | subscription _ => Option Subscription
  | findOrCreateSubscription _ _ => Subscription
  | masterTag _ => Option MasterTag
  | restrictionsOf _ _ => List (String × Restrictions)
  | saveMasterTag _ => Unit
  | masterTagsOf _ => List MasterTag
  | childTag _ => Option ChildTag
  | findOrCreateChildTag _ _ _ => ChildTag
  | mergeChanges _ _ => Merge
  | removeChanges _ _ => Bool
  | childTagsOf _ => List ChildTag

/-- Doing an operation. -/
def act : (o : Operation) → Action Store o.Answer
  | templateOf course => Store.templateOf? course
  | template id => Store.template? id
  | findOrCreateTemplate course => Store.findOrCreateTemplate course
  | subscription id => Store.subscription? id
  | findOrCreateSubscription templateId child => Store.findOrCreateSubscription templateId child
  | masterTag migrationId => Store.masterTag? migrationId
  | restrictionsOf ids template? => Store.restrictionsOf ids template?
  | saveMasterTag tag => Store.saveMasterTag tag
  | masterTagsOf templateId => Store.masterTagsOf templateId
  | childTag content => Store.childTag? content
  | findOrCreateChildTag subscriptionId content migrationId =>
    Store.findOrCreateChildTag subscriptionId content migrationId
  | mergeChanges content columns => Store.mergeChanges content columns
  | removeChanges content columns => Store.removeChanges content columns
  | childTagsOf subscriptionId => Store.childTagsOf subscriptionId

/-- The times of a master tag that is saved are ones that clocks show. -/
def IsDated : Operation → Prop
  | saveMasterTag tag => tag.IsDated
  | _ => True

/-- The same answer; restrictions may be in another order. -/
def SameAnswer : (o : Operation) → o.Answer → o.Answer → Prop
  | restrictionsOf ids _, rs, rs' => Store.SameRestrictions ids rs rs'
  | _, a, a' => a = a'

theorem SameAnswer.refl {o : Operation} (a : o.Answer) : o.SameAnswer a a := by
  cases o with
  | restrictionsOf ids template? => exact ⟨fun _ => .rfl, fun _ => .refl _⟩
  | _ => rfl

/-- The store after operations, one after the other, whatever they answer. -/
def runAll (os : List Operation) (s : Store) : Store := os.foldl (fun s o => (o.act.run s).2) s

end Operation

namespace Store

variable {s t : Store} {o : Operation}

/-- Stores that hold the same. -/
def Twins (s t : Store) : Prop := ∃ c : Contents, c.Good ∧ s.Holds c ∧ t.Holds c

/-- The end of an operation that two stores answer, and after which they hold the same. -/
def AnswerAlike (o : Operation) (s t : Store) : Prop :=
  ∃ a b s' t', o.act.run s = (.ok a, s') ∧ o.act.run t = (.ok b, t') ∧ o.SameAnswer a b ∧
    s'.Twins t'

theorem Twins.answerAlike_of_determined (h : s.Twins t) (ho : Determined (fun _ => True) o.act) :
    AnswerAlike o s t := by
  obtain ⟨c, hc, hs, ht⟩ := h
  obtain ⟨a, -, c', hc', hrun⟩ := ho c hc
  obtain ⟨s', hs, hs'⟩ := hrun s hs
  obtain ⟨t', ht, ht'⟩ := hrun t ht
  exact ⟨a, a, s', t', hs, ht, .refl a, c', hc', hs', ht'⟩

/-- Stores that hold the same answer alike. -/
theorem Twins.answerAlike (h : s.Twins t) (ho : o.IsDated) : AnswerAlike o s t := by
  cases o with
  | templateOf course => exact h.answerAlike_of_determined (determined_templateOf? course)
  | template id => exact h.answerAlike_of_determined (determined_template? id)
  | findOrCreateTemplate course =>
    exact h.answerAlike_of_determined (determined_findOrCreateTemplate course)
  | subscription id => exact h.answerAlike_of_determined (determined_subscription? id)
  | findOrCreateSubscription templateId child =>
    exact h.answerAlike_of_determined (determined_findOrCreateSubscription templateId child)
  | masterTag migrationId => exact h.answerAlike_of_determined (determined_masterTag? migrationId)
  | restrictionsOf ids template? =>
    obtain ⟨c, hc, hs, ht⟩ := h
    obtain ⟨rs, rs', s', t', hruns, hrunt, hs', ht', hrs⟩ := hs.run_restrictionsOf ht hc ids template?
    exact ⟨rs, rs', s', t', hruns, hrunt, hrs, c, hc, hs', ht'⟩
  | saveMasterTag tag => exact h.answerAlike_of_determined (determined_saveMasterTag ho)
  | masterTagsOf templateId => exact h.answerAlike_of_determined (determined_masterTagsOf templateId)
  | childTag content => exact h.answerAlike_of_determined (determined_childTag? content)
  | findOrCreateChildTag subscriptionId content migrationId =>
    exact h.answerAlike_of_determined
      (determined_findOrCreateChildTag subscriptionId content migrationId)
  | mergeChanges content columns =>
    exact h.answerAlike_of_determined (determined_mergeChanges content columns)
  | removeChanges content columns =>
    exact h.answerAlike_of_determined (determined_removeChanges content columns)
  | childTagsOf subscriptionId =>
    exact h.answerAlike_of_determined (determined_childTagsOf subscriptionId)

/-- Stores that hold the same still do after any operations. -/
theorem Twins.runAll {os : List Operation} (hos : ∀ o ∈ os, o.IsDated) (h : s.Twins t) :
    (Operation.runAll os s).Twins (Operation.runAll os t) := by
  induction os generalizing s t with
  | nil => exact h
  | cons o os ih =>
    obtain ⟨a, b, s', t', hs, ht, -, h'⟩ := h.answerAlike (hos o List.mem_cons_self)
    have hrest := ih (fun o' ho' => hos o' (List.mem_cons_of_mem o ho')) h'
    rw [Operation.runAll, Operation.runAll, List.foldl_cons, List.foldl_cons, hs, ht]
    exact hrest

/-- Without rows, a directory that works holds what tables in memory hold. -/
theorem twins_empty {p : Supply} (hclock : p.ShowsDates) {d : Directory} (hworks : d.Works)
    (hempty : (inDirectory d p).stored = .of .empty) : (inMemory p).Twins (inDirectory d p) := by
  refine ⟨⟨p, .empty⟩, ⟨hclock, List.nodup_nil⟩, ⟨rfl, rfl, rfl, rfl⟩, hworks, ?_, rfl, hempty⟩
  cases hopen : (inDirectory d p).isOpen with
  | true => exact seen_of_isOpen hopen
  | false => rw [hempty, seen, hopen, if_neg Bool.false_ne_true]

end Store

/-- Tables in memory and tables in a directory that works, both without rows at first and with the
same supply, hold and show the same rows after any operations, and both answer the next operation,
with the same answer. -/
theorem memory_directory_alike {p : Supply} (hclock : p.ShowsDates) {d : Directory} (hworks : d.Works)
    (hempty : (Store.inDirectory d p).stored = .of .empty) {os : List Operation} {o : Operation}
    (hdated : ∀ o' ∈ os ++ [o], o'.IsDated) :
    (∃ ts : Tables, ∀ s ∈ [Operation.runAll os (.inMemory p), Operation.runAll os (.inDirectory d p)],
      s.stored = .of ts ∧ s.seen = .of ts) ∧
    ∃ a b, (o.act.run (Operation.runAll os (.inMemory p))).1 = .ok a ∧
      (o.act.run (Operation.runAll os (.inDirectory d p))).1 = .ok b ∧ o.SameAnswer a b := by
  have htwins := (Store.twins_empty hclock hworks hempty).runAll fun o' ho' =>
    hdated o' (List.mem_append_left _ ho')
  obtain ⟨a, b, s', t', hs, ht, hsame, -⟩ := htwins.answerAlike
    (hdated o (List.mem_append_right _ List.mem_cons_self))
  obtain ⟨c, -, hm, hd⟩ := htwins
  refine ⟨⟨c.tables, fun s hs => ?_⟩, a, b, congrArg Prod.fst hs, congrArg Prod.fst ht, hsame⟩
  rcases List.mem_pair.1 hs with rfl | rfl
  · exact ⟨hm.stored, hm.seen⟩
  · exact ⟨hd.stored, hd.seen⟩

namespace Sample

/-- The master tags of two pages. -/
def pageTag (id : Uuid) (migrationId : String) : MasterTag :=
  ⟨id, ⟨3⟩, ⟨.wikiPage, id⟩, migrationId, Restrictions.none.set (.only .content) true, .epoch, .epoch⟩

/-- Two master tags are saved, one of them twice. -/
def savePages : List Operation :=
  [.saveMasterTag (pageTag ⟨1⟩ "a"), .findOrCreateTemplate ⟨10⟩, .saveMasterTag (pageTag ⟨2⟩ "b"),
    .saveMasterTag (pageTag ⟨1⟩ "a")]

/-- The restrictions of two pages are found in memory in the order asked for, and in the directory in
the order of its rows. -/
theorem restrictionsOf_savePages :
    let asked := Operation.restrictionsOf ["b", "a"] none
    let inMemory := Operation.runAll savePages (.inMemory supply)
    let inDirectory := Operation.runAll savePages (.inDirectory (.missing (some ∅)) supply)
    (∃ ts : Tables, ∀ s ∈ [inMemory, inDirectory], s.stored = .of ts ∧ s.seen = .of ts) ∧
    ∃ a b, (asked.act.run inMemory).1 = .ok a ∧ (asked.act.run inDirectory).1 = .ok b ∧
      asked.SameAnswer a b := by
  refine memory_directory_alike showsDates_supply ⟨.inr ⟨∅, rfl⟩, nofun⟩ rfl ?_
  have hpage : ∀ id migrationId, (pageTag id migrationId).IsDated := fun _ _ =>
    ⟨showsDates_supply 0, showsDates_supply 0⟩
  simp [savePages, Operation.IsDated, hpage]

end Sample

end CourseBlueprint
