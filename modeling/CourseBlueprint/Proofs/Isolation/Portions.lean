import CourseBlueprint.Proofs.Command.Writing
import CourseBlueprint.Proofs.Preload

/-!
# What a blueprint can be told from

The four tables are shared by all blueprints. A store shows of one of them its part of the tables only
(`Blueprint.Shown`), if no row of another can be taken for one of its own (`Blueprint.IsApart`). What is
looked up by its identifiers, recorded for its content or for its copies then depends on that part, and
on what is drawn, alone, whatever the rows of the others are.
-/

namespace CourseBlueprint

/-! ## Some of the rows -/

namespace Tables

variable {α : Type} {test p : α → Bool} {row : α} {rows : List α}

/-- A row is found among some that include all which pass the test. -/
theorem find?_filter (h : ∀ a ∈ rows, test a = true → p a = true) :
    (rows.filter p).find? test = rows.find? test := by
  induction rows with
  | nil => rfl
  | cons a rows ih =>
    have hrest := ih fun a ha => h a (List.mem_cons_of_mem _ ha)
    by_cases ha : test a = true
    · rw [List.filter_cons_of_pos (h a List.mem_cons_self ha), List.find?_cons_of_pos ha,
        List.find?_cons_of_pos ha]
    · rw [List.find?_cons_of_neg ha, List.filter_cons, ← hrest]
      split
      · rw [List.find?_cons_of_neg ha]
      · rfl

theorem filter_replaceFirst (h : ∀ a ∈ rows, test a = true → p a = true) (hrow : p row = true) :
    (replaceFirst test row rows).filter p = replaceFirst test row (rows.filter p) := by
  induction rows with
  | nil => rfl
  | cons a rows ih =>
    have hrest := ih fun a ha => h a (List.mem_cons_of_mem _ ha)
    rw [replaceFirst]
    split
    · next ha =>
      rw [List.filter_cons_of_pos hrow, List.filter_cons_of_pos (h a List.mem_cons_self ha),
        replaceFirst, if_pos ha]
    · next ha =>
      rw [List.filter_cons, List.filter_cons, hrest]
      split
      · rw [replaceFirst, if_neg ha]
      · rfl

theorem filter_upsert (h : ∀ a ∈ rows, test a = true → p a = true) (hrow : p row = true) :
    (upsert test row rows).filter p = upsert test row (rows.filter p) := by
  have hany : (rows.filter p).any test = rows.any test := by
    rw [Bool.eq_iff_iff, List.any_eq_true, List.any_eq_true]
    constructor
    · rintro ⟨a, ha, htest⟩
      exact ⟨a, (List.mem_filter.1 ha).1, htest⟩
    · rintro ⟨a, ha, htest⟩
      exact ⟨a, List.mem_filter.2 ⟨ha, h a ha htest⟩, htest⟩
  rw [upsert, upsert, hany]
  split
  · exact filter_replaceFirst h hrow
  · rw [List.filter_append, List.filter_cons_of_pos hrow, List.filter_nil]

end Tables

/-! ## Blueprints -/

/-- A template with the rows of its own and of its subscriptions, and content that no copy of another
blueprint is. -/
structure Blueprint where
  id : Uuid
  templates : List Template
  subscriptions : List Subscription
  own : ContentKey → Prop

/-- The master tags of a template and the child tags of its copies, what is drawn from if that is known,
and whether writes are refused. -/
structure Portion where
  masterTags : List MasterTag
  childTags : List ChildTag
  supply? : Option Supply
  refuses : Bool

namespace Blueprint

variable (b : Rulebook) (bp : Blueprint)

/-- Whether a child tag is that of a copy in one of the subscriptions. -/
def follows (c : ChildTag) : Bool := bp.subscriptions.any fun sub => sub.id = c.subscriptionId

/-- Whether a migration identifier is that of content of the template. -/
def Derives (id : String) : Prop :=
  ∃ t : Template, t.id = bp.id ∧ ∃ content, id = t.migrationId b.settings.marker content

/-- Whether a child tag is that of a copy that was made from content of the template. -/
structure IsCopy (c : ChildTag) : Prop where
  follows : bp.follows c = true
  own : bp.own c.content
  derived : ∀ id ∈ c.migrationId, bp.Derives b id

/-- Tables in which no row of another blueprint can be taken for one of this. -/
structure IsApart (ts : Tables) : Prop where
  templates : (ts.templates.filter fun t => t.id = bp.id) = bp.templates
  subscriptions : (ts.subscriptions.filter fun sub => sub.templateId = bp.id) = bp.subscriptions
  courses : (ts.templates.map Template.courseId).Nodup
  subscriptionIds : (ts.subscriptions.map Subscription.id).Nodup
  migrationIds : (ts.masterTags.map MasterTag.migrationId).Nodup
  derived : ∀ m ∈ ts.masterTags, bp.Derives b m.migrationId → m.templateId = bp.id
  copies : ∀ c ∈ ts.childTags, bp.own c.content ∨ bp.follows c = true → bp.IsCopy b c

/-- Tables with the master tags and child tags of a portion among those of other blueprints. -/
structure Holds (ts : Tables) (p : Portion) : Prop extends bp.IsApart b ts where
  masterTags : (ts.masterTags.filter fun m => m.templateId = bp.id) = p.masterTags
  childTags : ts.childTags.filter bp.follows = p.childTags

/-- A store that shows all that it holds, among which is a portion of a blueprint. -/
structure Shown (s : Store) (p : Portion) : Prop where
  writes : if p.refuses then s.Refuses else s.Works
  seen : s.seen = s.stored
  clock : s.supply.ShowsDates
  supply : ∀ q ∈ p.supply?, s.supply = q
  held : ∃ ts, s.stored = .of ts ∧ bp.Holds b ts p

variable {b : Rulebook} {bp : Blueprint} {p p' : Portion} {s s' : Store} {ts : Tables}
  {P : Portion → Prop}

/-! ## Looking up -/

section Reading

variable {α : Type}

/-- What reads the tables depends on a portion if its answer is that for the portion. -/
theorem dependsOn_of_run {x : Action Store α} (f : Stored → Result α) {g : Portion → α} {F : α → Prop}
    (hx : ∀ s, x.run s = (f s.seen, s))
    (hf : ∀ ts p, bp.Holds b ts p → f (.of ts) = .ok (g p) ∧ F (g p)) :
    Action.DependsOn (bp.Shown b) P x fun a p => F a ∧ P p :=
  .of_read fun s p hs => by
    obtain ⟨ts, hstored, hheld⟩ := hs.held
    obtain ⟨hanswer, hF⟩ := hf ts p hheld
    exact ⟨s, by rw [hx, hs.seen, hstored, hanswer], hs, hF⟩

end Reading

theorem mem_templates_iff (h : bp.IsApart b ts) {t : Template} :
    t ∈ bp.templates ↔ t ∈ ts.templates ∧ t.id = bp.id := by
  rw [← h.templates, List.mem_filter, decide_eq_true_iff]

theorem mem_subscriptions_iff (h : bp.IsApart b ts) {sub : Subscription} :
    sub ∈ bp.subscriptions ↔ sub ∈ ts.subscriptions ∧ sub.templateId = bp.id := by
  rw [← h.subscriptions, List.mem_filter, decide_eq_true_iff]

theorem mem_templates_of_find? (h : bp.IsApart b ts) {test : Template → Bool} {t : Template}
    (ht : bp.templates.find? test = some t) : t ∈ bp.templates ∧ t.id = bp.id :=
  have hmem := List.mem_of_find?_eq_some ht
  ⟨hmem, ((mem_templates_iff h).1 hmem).2⟩

/-- The template of a course is its own, if one of its own is of that course. -/
theorem dependsOn_templateOf? {course : Uuid} (h : ∃ t ∈ bp.templates, t.courseId = course) :
    Action.DependsOn (bp.Shown b) P (Store.templateOf? course) fun t? p =>
      (∀ t ∈ t?, t ∈ bp.templates ∧ t.id = bp.id) ∧ P p := by
  refine dependsOn_of_run
    (fun st => st.templates.map fun rows => rows.find? fun t => decide (t.courseId = course))
    (g := fun _ => bp.templates.find? fun t => t.courseId = course) (Store.run_templateOf? course)
    fun ts p hheld => ⟨congrArg Except.ok ?_, fun t ht => mem_templates_of_find? hheld.toIsApart ht⟩
  obtain ⟨t, ht, hcourse⟩ := h
  obtain ⟨ht, hid⟩ := (mem_templates_iff hheld.toIsApart).1 ht
  rw [← hheld.templates, Tables.find?_filter]
  intro row hrow htest
  have hsame : row.courseId = t.courseId := (of_decide_eq_true htest).trans hcourse.symm
  rw [Tables.eq_of_nodup_map hheld.courses hrow ht hsame]
  exact decide_eq_true hid

/-- A template of its identifier is its own. -/
theorem dependsOn_template? : Action.DependsOn (bp.Shown b) P (Store.template? bp.id) fun t? p =>
    (∀ t ∈ t?, t ∈ bp.templates ∧ t.id = bp.id) ∧ P p := by
  refine dependsOn_of_run
    (fun st => st.templates.map fun rows => rows.find? fun t => decide (t.id = bp.id))
    (g := fun _ => bp.templates.find? fun t => t.id = bp.id)
    (Store.run_template? bp.id)
    fun ts p hheld => ⟨congrArg Except.ok ?_, fun t ht => mem_templates_of_find? hheld.toIsApart ht⟩
  rw [← hheld.templates, Tables.find?_filter fun _ _ htest => htest]

/-- A subscription is its own, if one of its own has the identifier. -/
theorem dependsOn_subscription? {id : Uuid} (h : ∃ sub ∈ bp.subscriptions, sub.id = id) :
    Action.DependsOn (bp.Shown b) P (Store.subscription? id) fun sub? p =>
      (∀ sub ∈ sub?, sub ∈ bp.subscriptions ∧ sub.templateId = bp.id) ∧ P p := by
  refine dependsOn_of_run
    (fun st => st.subscriptions.map fun rows => rows.find? fun sub => decide (sub.id = id))
    (g := fun _ => bp.subscriptions.find? fun sub => sub.id = id) (Store.run_subscription? id)
    fun ts p hheld => ⟨congrArg Except.ok ?_, fun sub hsub => ?_⟩
  · obtain ⟨sub, hsub, hid⟩ := h
    obtain ⟨hsub, hfollows⟩ := (mem_subscriptions_iff hheld.toIsApart).1 hsub
    rw [← hheld.subscriptions, Tables.find?_filter]
    intro row hrow htest
    have hsame : row.id = sub.id := (of_decide_eq_true htest).trans hid.symm
    rw [Tables.eq_of_nodup_map hheld.subscriptionIds hrow hsub hsame]
    exact decide_eq_true hfollows
  · have hmem := List.mem_of_find?_eq_some hsub
    exact ⟨hmem, ((mem_subscriptions_iff hheld.toIsApart).1 hmem).2⟩

theorem dependsOn_masterTagsOf :
    Action.DependsOn (bp.Shown b) P (Store.masterTagsOf bp.id) fun _ p => P p := by
  refine (dependsOn_of_run (F := fun _ => True) (fun st => st.masterTags.map fun rows =>
      (rows.filter fun m => m.templateId = bp.id).mergeSort fun t u => t.migrationId ≤ u.migrationId)
    (g := fun p => p.masterTags.mergeSort fun t u => t.migrationId ≤ u.migrationId)
    (fun s => Action.run_read (Store.run_masterTags s))
    fun ts p hheld => ⟨congrArg Except.ok ?_, trivial⟩).mono (fun _ h => h) fun _ _ h => h.2
  rw [← hheld.masterTags]

/-! ## Child tags -/

theorem childTagIn_eq (h : bp.Holds b ts p) {content : ContentKey} (hown : bp.own content) :
    Tables.childTagIn p.childTags content = Tables.childTagIn ts.childTags content := by
  rw [← h.childTags]
  refine Tables.find?_filter fun row hrow htest => ?_
  have hcontent : row.content = content := of_decide_eq_true htest
  exact (h.copies row hrow (.inl (hcontent ▸ hown))).follows

theorem isCopy_of_mem (h : bp.Holds b ts p) {tag : ChildTag} (htag : tag ∈ p.childTags) :
    bp.IsCopy b tag := by
  rw [← h.childTags] at htag
  obtain ⟨hrow, hfollows⟩ := List.mem_filter.1 htag
  exact h.copies tag hrow (.inr hfollows)

/-- The child tag of its own content is that of a copy. -/
theorem dependsOn_childTag? {content : ContentKey} (hown : bp.own content) :
    Action.DependsOn (bp.Shown b) P (Store.childTag? content) fun tag? p =>
      (∀ tag ∈ tag?, bp.IsCopy b tag ∧ tag.content = content) ∧ P p := by
  refine dependsOn_of_run (fun st => st.childTag? content)
    (g := fun p => Tables.childTagIn p.childTags content) (Store.run_childTag? content)
    fun ts p hheld => ⟨?_, fun tag htag => ?_⟩
  · rw [childTagIn_eq hheld hown]
    rfl
  · exact ⟨isCopy_of_mem hheld (List.mem_of_find?_eq_some htag), Tables.content_of_childTagIn htag⟩

/-- The child tags of its subscriptions are those of copies. -/
theorem dependsOn_childTagsOf {sub : Subscription} (hsub : sub ∈ bp.subscriptions) :
    Action.DependsOn (bp.Shown b) P (Store.childTagsOf sub.id) fun tags p =>
      (∀ tag ∈ tags, bp.IsCopy b tag) ∧ P p := by
  refine dependsOn_of_run (fun st => st.childTags.map fun rows =>
      (rows.filter fun t => t.subscriptionId = sub.id).mergeSort fun t u => t.content.le u.content)
    (g := fun p => (p.childTags.filter fun t => t.subscriptionId = sub.id).mergeSort
      fun t u => t.content.le u.content)
    (Command.run_childTagsOf sub.id) fun ts p hheld => ⟨congrArg Except.ok ?_, fun tag htag => ?_⟩
  · rw [← hheld.childTags, List.filter_filter]
    refine congrArg (List.mergeSort · _) (List.filter_congr fun row hrow => ?_)
    cases hours : decide (row.subscriptionId = sub.id) with
    | false => rfl
    | true =>
      have hfollows : bp.follows row = true :=
        List.any_eq_true.2 ⟨sub, hsub, decide_eq_true (of_decide_eq_true hours).symm⟩
      rw [hfollows]
      rfl
  · have hmem := (List.mergeSort_perm _ _).mem_iff.1 htag
    exact isCopy_of_mem hheld (List.mem_filter.1 hmem).1

/-! ## Master tags by migration identifier -/

theorem find?_masterTags (h : bp.Holds b ts p) {id : String} (hid : bp.Derives b id) :
    (p.masterTags.find? fun m => m.migrationId = id) =
      ts.masterTags.find? fun m => m.migrationId = id := by
  rw [← h.masterTags]
  refine Tables.find?_filter fun row hrow htest => decide_eq_true ?_
  have hsame : row.migrationId = id := of_decide_eq_true htest
  exact h.derived row hrow (hsame ▸ hid)

/-- A look-up of master tags that is noted changes nothing that is shown. -/
theorem Shown.noting (hs : bp.Shown b s p) (ids : List String) : bp.Shown b (s.noting ids) p := by
  obtain ⟨m | d, q⟩ := s
  · exact ⟨hs.writes, hs.seen, hs.clock, hs.supply, hs.held⟩
  · exact hs

/-- The master tag of its content. -/
theorem dependsOn_masterTag? {id : String} (hid : bp.Derives b id) :
    Action.DependsOn (bp.Shown b) P (Store.masterTag? id) fun _ p => P p := by
  refine (Action.DependsOn.of_read (F := fun _ => True)
    (g := fun p : Portion => p.masterTags.find? fun m => m.migrationId = id)
    fun s p hs => ?_).mono (fun _ h => h) fun _ _ h => h.2
  obtain ⟨ts, hstored, hheld⟩ := hs.held
  have hrows : s.seen.masterTags = .ok ts.masterTags := by rw [hs.seen, hstored]; rfl
  refine ⟨_, ?_, hs.noting [id], trivial⟩
  rw [Store.run_masterTag?_of_seen hrows hheld.migrationIds, find?_masterTags hheld hid]

/-! ## New identifiers and times -/

/-- Whether it is known what is drawn from, and no copy of another blueprint has one of the next `n`
identifiers. -/
def Offers (bp : Blueprint) (n : Nat) (p : Portion) : Prop :=
  ∃ q ∈ p.supply?, ∀ i < n, ∀ kind, bp.own ⟨kind, q.ids (q.idsUsed + i)⟩

variable {n : Nat}

theorem Offers.mono {m : Nat} (h : bp.Offers n p) (hle : m ≤ n) : bp.Offers m p := by
  obtain ⟨q, hq, hown⟩ := h
  exact ⟨q, hq, fun i hi => hown i (Nat.lt_of_lt_of_le hi hle)⟩

/-- A store in the same place shows what it showed, but for what is drawn from. -/
theorem Shown.of_place_eq (hs : bp.Shown b s p) (hplace : s'.place = s.place)
    (hclock : s'.supply.ShowsDates) {supply? : Option Supply} (hsupply : ∀ q ∈ supply?, s'.supply = q) :
    bp.Shown b s' { p with supply? := supply? } := by
  obtain ⟨place, q⟩ := s
  obtain ⟨place', q'⟩ := s'
  obtain rfl : place' = place := hplace
  exact ⟨hs.writes, hs.seen, hclock, hsupply,
    hs.held.imp fun ts h => ⟨h.1, { h.2 with masterTags := h.2.masterTags, childTags := h.2.childTags }⟩⟩

/-- A new identifier is its own if it was offered. -/
theorem dependsOn_newId : Action.DependsOn (bp.Shown b) (bp.Offers n) Store.newId fun id p =>
    (0 < n → ∀ kind, bp.own ⟨kind, id⟩) ∧ bp.Offers (n - 1) p := by
  rintro p ⟨q, hq, hown⟩ -
  refine .inr ⟨q.ids q.idsUsed, { p with supply? := some { q with idsUsed := q.idsUsed + 1 } },
    ⟨fun hn => hown 0 hn, _, rfl, fun i hi kind => ?_⟩, fun s hs => ?_⟩
  · show bp.own ⟨kind, q.ids (q.idsUsed + 1 + i)⟩
    rw [Nat.add_assoc, Nat.add_comm 1 i]
    exact hown (i + 1) (by omega) kind
  · have hsupply := hs.supply q hq
    refine ⟨s.afterId, ?_, hs.of_place_eq (rfl : s.afterId.place = s.place) hs.clock fun q' hq' => ?_⟩
    · rw [Store.run_newId, hsupply]
    · rw [← Option.some.inj hq', ← hsupply]
      rfl

theorem dependsOn_now : Action.DependsOn (bp.Shown b) (bp.Offers n) Store.now fun time p =>
    time.IsDate ∧ bp.Offers n p := by
  rintro p ⟨q, hq, hown⟩ ⟨s₀, hs₀⟩
  refine .inr ⟨q.times q.timesUsed, { p with supply? := some { q with timesUsed := q.timesUsed + 1 } },
    ⟨?_, _, rfl, hown⟩, fun s hs => ?_⟩
  · rw [← hs₀.supply q hq]
    exact hs₀.clock _
  · have hsupply := hs.supply q hq
    refine ⟨s.afterTime, ?_, hs.of_place_eq (rfl : s.afterTime.place = s.place) hs.clock fun q' hq' => ?_⟩
    · rw [Store.run_now, hsupply]
    · rw [← Option.some.inj hq', ← hsupply]
      rfl

/-! ## Writing -/

theorem Shown.refuses (hs : bp.Shown b s p) (h : p.refuses = true) : s.Refuses := by
  have hwrites := hs.writes
  rwa [if_pos h] at hwrites

theorem Shown.works (hs : bp.Shown b s p) (h : p.refuses = false) : s.Works := by
  have hwrites := hs.writes
  rwa [if_neg (by simp [h])] at hwrites

/-- What performs a function that has an answer for the rows that are held answers it, where writing
works. -/
theorem Shown.run_performed {α : Type} (hs : bp.Shown b s p) (hworks : p.refuses = false)
    {x : Action Store α} {f : Stored → Result (α × Stored)} {a : α} {masterTags : List MasterTag}
    {childTags : List ChildTag} (hx : ∀ r s', x.run s = (r, s') → Store.Performed s f r s')
    (hf : ∀ ts, bp.Holds b ts p → ∃ ts', f (.of ts) = .ok (a, .of ts') ∧
      bp.Holds b ts' { p with masterTags := masterTags, childTags := childTags }) :
    ∃ s', x.run s = (.ok a, s') ∧
      bp.Shown b s' { p with masterTags := masterTags, childTags := childTags } := by
  obtain ⟨ts, hstored, hheld⟩ := hs.held
  obtain ⟨ts', hanswer, hheld'⟩ := hf ts hheld
  have hholds : s.Holds ⟨s.supply, ts⟩ := ⟨hs.works hworks, hs.seen, rfl, hstored⟩
  obtain ⟨s', hrun, hholds'⟩ := hholds.run_performed hx hanswer
  refine ⟨s', hrun, ?_, hholds'.shown, ?_, ?_, ts', hholds'.stored, hheld'⟩
  · rw [if_neg (by simp [hworks])]
    exact hholds'.works
  · rw [hholds'.supply]
    exact hs.clock
  · rw [hholds'.supply]
    exact hs.supply

/-- Saving a master tag of the template. -/
theorem dependsOn_saveMasterTag {tag : MasterTag} (htemplate : tag.templateId = bp.id)
    (hid : bp.Derives b tag.migrationId) (hdated : tag.IsDated) :
    Action.DependsOn (bp.Shown b) (bp.Offers n) (Store.saveMasterTag tag) fun _ => bp.Offers n := by
  intro p hp _
  cases hrefuses : p.refuses with
  | true =>
    refine .inl ⟨.writeRefused, fun s hs => ?_⟩
    rw [Store.saveMasterTag, Memory.upsertMasterTag,
      Store.run_onPlace_of_refuses (hs.refuses hrefuses)]
  | false =>
    refine .inr ⟨(), { p with
      masterTags := Tables.upsert (fun row => row.migrationId = tag.migrationId) tag p.masterTags },
      hp, fun s hs => hs.run_performed hrefuses
        (fun _ _ => Store.saveMasterTag_performed fun _ => hdated) fun ts hheld =>
          ⟨_, Store.masterTagShelf_fits.revise_of _ ts, ?_⟩⟩
    have hours : ∀ row ∈ ts.masterTags, decide (row.migrationId = tag.migrationId) = true →
        decide (row.templateId = bp.id) = true := fun row hrow htest =>
      decide_eq_true (hheld.derived row hrow (of_decide_eq_true htest ▸ hid))
    exact
      { hheld with
        migrationIds := Tables.nodup_map_upsert hheld.migrationIds
        derived := fun m hm hderives => by
          rcases Tables.mem_upsert hm with rfl | hm
          · exact htemplate
          · exact hheld.derived m hm hderives
        masterTags := by
          rw [← hheld.masterTags]
          exact Tables.filter_upsert hours (decide_eq_true htemplate) }

/-- A new master tag is that of the content, and dated. -/
theorem dependsOn_newMasterTag (t : Template) (content : ContentKey) (id : String) :
    Action.DependsOn (bp.Shown b) (bp.Offers n) (Store.newMasterTag t content id) fun tag p =>
      (tag.templateId = t.id ∧ tag.migrationId = id ∧ tag.IsDated) ∧ bp.Offers (n - 1) p :=
  dependsOn_newId.bind fun _ => .under fun _ => dependsOn_now.bind fun _ => .under fun htime =>
    .pure fun _ hp => ⟨⟨rfl, rfl, htime, htime⟩, hp⟩

/-! ## Working on child tags -/

/-- Adding the child tag of a copy unless its content has one. -/
theorem dependsOn_insertChildTag {tag : ChildTag} (hcopy : bp.IsCopy b tag) (hdated : tag.IsDated) :
    Action.DependsOn (bp.Shown b) (bp.Offers n) (Store.insertChildTag tag) fun made p =>
      made.content = tag.content ∧ bp.Offers n p := by
  intro p hp _
  cases hrefuses : p.refuses with
  | true =>
    refine .inl ⟨.writeRefused, fun s hs => ?_⟩
    rw [Store.insertChildTag, Memory.insertChildTag, Store.run_onPlace_of_refuses (hs.refuses hrefuses)]
  | false =>
    have hfound : ∀ ts, bp.Holds b ts p → (ts.childTags.find? fun row => row.content = tag.content) =
        p.childTags.find? fun row => row.content = tag.content :=
      fun ts hheld => (childTagIn_eq hheld hcopy.own).symm
    cases hfind : p.childTags.find? fun row => row.content = tag.content with
    | some found =>
      refine .inr ⟨found, p, ⟨Tables.content_of_childTagIn hfind, hp⟩, fun s hs =>
        hs.run_performed hrefuses (fun _ _ => Store.insertChildTag_performed hdated) fun ts hheld => ?_⟩
      refine ⟨ts, ?_, hheld⟩
      rw [Store.childTagShelf_fits.revise_of, Tables.insertUnless, hfound ts hheld, hfind]
      rfl
    | none =>
      refine .inr ⟨tag, { p with childTags := p.childTags ++ [tag] }, ⟨rfl, hp⟩, fun s hs =>
        hs.run_performed hrefuses (fun _ _ => Store.insertChildTag_performed hdated) fun ts hheld => ?_⟩
      refine ⟨{ ts with childTags := ts.childTags ++ [tag] }, ?_, ?_⟩
      · rw [Store.childTagShelf_fits.revise_of, Tables.insertUnless, hfound ts hheld, hfind]
        rfl
      · exact
          { hheld with
            copies := Tables.forall_mem_append hheld.copies fun _ => hcopy
            childTags := by
              rw [← hheld.childTags, List.filter_append, List.filter_cons_of_pos hcopy.follows,
                List.filter_nil] }

/-- Of its own content the child tag is found, or added for one of its subscriptions. -/
theorem dependsOn_findOrCreateChildTag {sub : Subscription} (hsub : sub ∈ bp.subscriptions)
    {content : ContentKey} (hown : bp.own content) {id? : Option String}
    (hid : ∀ id ∈ id?, bp.Derives b id) :
    Action.DependsOn (bp.Shown b) (bp.Offers n) (Store.findOrCreateChildTag sub.id content id?)
      fun tag p => tag.content = content ∧ bp.Offers (n - 1) p := by
  refine (dependsOn_childTag? hown).bind fun tag? => .under fun htag => ?_
  cases tag? with
  | some tag => exact .pure fun p hp => ⟨(htag tag rfl).2, hp.mono (by omega)⟩
  | none =>
    refine dependsOn_newId.bind fun id => .under fun _ =>
      dependsOn_now.bind fun time => .under fun htime => ?_
    have hfollows : (bp.subscriptions.any fun row => row.id = sub.id) = true :=
      List.any_eq_true.2 ⟨sub, hsub, decide_eq_true rfl⟩
    have hcopy : bp.IsCopy b ⟨id, sub.id, content, id?, ∅, time, time⟩ := ⟨hfollows, hown, hid⟩
    exact dependsOn_insertChildTag hcopy ⟨htime, htime⟩

section Updating

variable {α : Type} {content : ContentKey} {update : ChildTag → α × Option ChildTag}

/-- Work on the child tag of its own content, where writing is refused. -/
theorem dependsOn_update_of_refuses (hown : bp.own content) {y : Action Directory (Option α)} :
    Action.DependsOn (bp.Shown b) (fun p => p.refuses = true ∧ bp.Offers n p)
      (Store.onPlace (Memory.updateChildTag content update) y) fun _ => bp.Offers n := by
  rintro p ⟨hrefuses, hp⟩ -
  obtain ⟨answer, hrun⟩ : ∃ answer, ∀ s, bp.Shown b s p →
      (Store.onPlace (Memory.updateChildTag content update) y).run s = (answer, s) := by
    refine ⟨(Tables.childTagIn p.childTags content).elim (.ok none) fun tag =>
      if (update tag).2.isSome then .error .writeRefused else .ok (some (update tag).1), fun s hs => ?_⟩
    obtain ⟨ts, hstored, hheld⟩ := hs.held
    have hrows : s.stored.childTags = .ok ts.childTags := by rw [hstored]; rfl
    rw [Store.run_updateOnPlace_of_refuses (hs.refuses hrefuses) hrows, childTagIn_eq hheld hown]
  cases answer with
  | error e => exact .inl ⟨e, fun s hs => by rw [hrun s hs]⟩
  | ok a => exact .inr ⟨a, p, hp, fun s hs => ⟨s, hrun s hs, hs⟩⟩

/-- Tables after the changes of a copy were set. -/
theorem Holds.setChanges (h : bp.Holds b ts p) {tag : ChildTag}
    (htag : Tables.childTagIn p.childTags content = some tag) (changes : NameSet) (time : Timestamp) :
    bp.Holds b { ts with
        childTags := Tables.replaceFirst (fun row => row.content = content)
          (tag.withChanges changes time) ts.childTags }
      { p with
        childTags := Tables.replaceFirst (fun row => row.content = content)
          (tag.withChanges changes time) p.childTags } := by
  obtain ⟨hfollows, hown, hderived⟩ := isCopy_of_mem h (List.mem_of_find?_eq_some htag)
  have hcontent := Tables.content_of_childTagIn htag
  have hours : ∀ row ∈ ts.childTags, decide (row.content = content) = true →
      bp.follows row = true := by
    intro row hrow htest
    have hsame : row.content = tag.content := (of_decide_eq_true htest).trans hcontent.symm
    exact (h.copies row hrow (.inl (hsame ▸ hown))).follows
  exact
    { h with
      copies := fun c hc => by
        rcases Tables.mem_replaceFirst hc with rfl | hc
        · exact fun _ => ⟨hfollows, hown, hderived⟩
        · exact h.copies c hc
      childTags := by
        rw [← h.childTags]
        exact Tables.filter_replaceFirst hours hfollows }

/-- Work on the child tag of its own content, where writing works. -/
theorem dependsOn_update_of_works (hown : bp.own content)
    (hupdate : ∀ tag tag', (update tag).2 = some tag' →
      ∃ changes time, tag' = tag.withChanges changes time)
    (hdated : ∀ tag tag', tag.IsDated → (update tag).2 = some tag' → tag'.IsDated) :
    Action.DependsOn (bp.Shown b) (fun p => p.refuses = false ∧ bp.Offers n p)
      (Store.onPlace (Memory.updateChildTag content update) (Directory.updateChildTag content update))
      fun _ => bp.Offers n := by
  rintro p ⟨hworks, hp⟩ -
  have hfound : ∀ ts, bp.Holds b ts p → (ts.childTags.find? fun row => row.content = content) =
      Tables.childTagIn p.childTags content := fun ts hheld => (childTagIn_eq hheld hown).symm
  -- the portion tells which tag is found, and so whether it changes
  cases hfind : Tables.childTagIn p.childTags content with
  | none =>
    refine .inr ⟨none, p, hp, fun s hs => hs.run_performed hworks
      (fun _ _ => Store.updateChildTag_performed hdated) fun ts hheld => ⟨ts, ?_, hheld⟩⟩
    rw [Store.childTagShelf_fits.revise_of, Tables.updateChildTag, hfound ts hheld, hfind]
    rfl
  | some tag =>
    cases hnew : (update tag).2 with
    | none =>
      refine .inr ⟨some (update tag).1, p, hp, fun s hs => hs.run_performed hworks
        (fun _ _ => Store.updateChildTag_performed hdated) fun ts hheld => ⟨ts, ?_, hheld⟩⟩
      rw [Store.childTagShelf_fits.revise_of, Tables.updateChildTag, hfound ts hheld, hfind]
      simp only [hnew, Option.map_none, Option.getD_none]
    | some tag' =>
      obtain ⟨changes, time, rfl⟩ := hupdate tag tag' hnew
      refine .inr ⟨some (update tag).1, { p with
        childTags := Tables.replaceFirst (fun row => row.content = content)
          (tag.withChanges changes time) p.childTags }, hp, fun s hs => hs.run_performed hworks
        (fun _ _ => Store.updateChildTag_performed hdated) fun ts hheld =>
          ⟨_, ?_, hheld.setChanges hfind changes time⟩⟩
      rw [Store.childTagShelf_fits.revise_of, Tables.updateChildTag, hfound ts hheld, hfind]
      simp only [hnew, Option.map_some, Option.getD_some]

/-- Work on the child tag of its own content. -/
theorem dependsOn_updateChildTag (hown : bp.own content) (hupdate : Store.RevisesChanges update) :
    Action.DependsOn (bp.Shown b) (bp.Offers n) (Store.updateChildTag content update)
      fun _ => bp.Offers n := by
  refine dependsOn_now.bind fun time => .under fun htime => ?_
  intro p hp hshown
  cases hrefuses : p.refuses with
  | true => exact dependsOn_update_of_refuses hown p ⟨hrefuses, hp⟩ hshown
  | false =>
    refine dependsOn_update_of_works hown (fun tag tag' hnew => ?_) (hupdate.isDated_stamped htime) p
      ⟨hrefuses, hp⟩ hshown
    obtain ⟨tag'', hchanged, rfl⟩ := Option.map_eq_some_iff.1 hnew
    obtain ⟨changes, rfl⟩ := hupdate tag tag'' hchanged
    exact ⟨changes, time, rfl⟩

end Updating

theorem dependsOn_removeChanges {content : ContentKey} (hown : bp.own content) (columns : NameSet) :
    Action.DependsOn (bp.Shown b) (bp.Offers n) (Store.removeChanges content columns)
      fun _ => bp.Offers n :=
  (dependsOn_updateChildTag hown (Store.revisesChanges_removal columns)).bind fun _ =>
    .pure fun _ hp => hp

theorem dependsOn_mergeChanges {content : ContentKey} (hown : bp.own content) (columns : NameSet) :
    Action.DependsOn (bp.Shown b) (bp.Offers n) (Store.mergeChanges content columns)
      fun _ => bp.Offers n := by
  refine (dependsOn_updateChildTag hown (Store.revisesChanges_merging columns)).bind fun added? => ?_
  split
  · exact .pure fun _ hp => hp
  · exact .pure fun _ hp => hp

end Blueprint

end CourseBlueprint
