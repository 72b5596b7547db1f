import CourseBlueprint.Proofs.Command.NamedRows

/-!
# The rows of one template

A request is about one template at most (`Request.template?`). The rows of any other, with its
subscriptions and copies, are the same afterwards (`Tables.Rooted.part_eq`), if identifiers are drawn
once: what the tables hold then goes back to the template that it belongs to (`Tables.Rooted`).
-/

namespace CourseBlueprint

/-! ## What a request is about -/

namespace Stored

variable (st : Stored)

/-- The template of a course. -/
def templateIdOf? (course : Uuid) : Option Uuid := do
  let rows ← st.templates.toOption
  (rows.find? fun t => t.courseId = course).map Template.id

/-- The template that a subscription follows. -/
def followedId? (id : Uuid) : Option Uuid := do
  let rows ← st.subscriptions.toOption
  (rows.find? fun sub => sub.id = id).map Subscription.templateId

/-- The template that a copy was made from. -/
def copiedId? (content : ContentKey) : Option Uuid := do
  let rows ← st.childTags.toOption
  let tag ← Tables.childTagIn rows content
  st.followedId? tag.subscriptionId

end Stored

/-- The template that a request is about, by the rows that it finds. -/
def Request.template? (st : Stored) : Request → Option Uuid
  | makeBlueprint course | subscribe course _ | setLocks course _ _ _ | showContent course _ =>
    st.templateIdOf? course
  | sync id _ _ | status id => st.followedId? id
  | inspect content | edit content _ _ _ | preview content => st.copiedId? content
  | listSchemas _ | showConfig => none

/-- The store after requests that were made one after the other, none of them about a template. -/
inductive Store.Elsewhere (b : Rulebook) (x : Uuid) (s : Store) : Store → Prop
  | refl : Elsewhere b x s s
  | tail {t : Store} (before : Elsewhere b x s t) (r : Request)
      (hother : r.template? t.stored ≠ some x) : Elsewhere b x s ((r.run b).run t).2

/-! ## Rows that go back to templates -/

namespace Tables

/-- Tables of which all identifiers were drawn, and all copies go back to templates. -/
structure Rooted (b : Rulebook) (drawn : Uuid → Prop) (ts : Tables) : Prop where
  courses : (ts.templates.map Template.courseId).Nodup
  templatesDrawn : ∀ t ∈ ts.templates, drawn t.id
  subscriptionIds : (ts.subscriptions.map Subscription.id).Nodup
  subscriptionsDrawn : ∀ sub ∈ ts.subscriptions, drawn sub.id
  followed : ∀ sub ∈ ts.subscriptions, ∃ t ∈ ts.templates, t.id = sub.templateId
  contentsDrawn : ∀ c ∈ ts.childTags, drawn c.content.id
  copies : ∀ c ∈ ts.childTags, ∃ sub ∈ ts.subscriptions, sub.id = c.subscriptionId ∧
    ∃ t ∈ ts.templates, t.id = sub.templateId ∧
      ∃ content, c.migrationId = some (t.migrationId b.settings.marker content)

theorem rooted_empty (b : Rulebook) (drawn : Uuid → Prop) : empty.Rooted b drawn where
  courses := List.nodup_nil
  templatesDrawn := fun _ h => absurd h List.not_mem_nil
  subscriptionIds := List.nodup_nil
  subscriptionsDrawn := fun _ h => absurd h List.not_mem_nil
  followed := fun _ h => absurd h List.not_mem_nil
  contentsDrawn := fun _ h => absurd h List.not_mem_nil
  copies := fun _ h => absurd h List.not_mem_nil

variable {b : Rulebook} {drawn drawn' new : Uuid → Prop} {ts ts' : Tables} {x : Uuid}

theorem Rooted.mono (h : ts.Rooted b drawn) (hdrawn : ∀ id, drawn id → drawn' id) :
    ts.Rooted b drawn' :=
  { h with
    templatesDrawn := fun t ht => hdrawn t.id (h.templatesDrawn t ht)
    subscriptionsDrawn := fun sub hsub => hdrawn sub.id (h.subscriptionsDrawn sub hsub)
    contentsDrawn := fun c hc => hdrawn c.content.id (h.contentsDrawn c hc) }

/-- A template that is followed is the one of the subscription. -/
theorem of_followed? {id : Uuid} {t : Template} (h : ts.followed? id = some t) :
    t ∈ ts.templates ∧ ∃ sub ∈ ts.subscriptions, sub.id = id ∧ t.id = sub.templateId := by
  obtain ⟨sub, hsub, ht⟩ := Option.bind_eq_some_iff.1 h
  refine ⟨List.mem_of_find?_eq_some ht, sub, List.mem_of_find?_eq_some hsub, ?_, ?_⟩
  · simpa using List.find?_some hsub
  · simpa using List.find?_some ht

end Tables

/-! ## What requests add -/

namespace Request

variable (b : Rulebook) (new : Uuid → Prop) (ts : Tables)

/-- A template is added for a course that has none, and none is changed. -/
theorem reach_templates (r : Request) :
    (∀ t t', ¬ (r.reach b new ts).templates.changes t t') ∧
      ∀ t, (r.reach b new ts).templates.adds t →
        new t.id ∧ ∀ row ∈ ts.templates, row.courseId ≠ t.courseId := by
  cases r with
  | makeBlueprint course =>
    refine ⟨fun _ _ h => h, ?_⟩
    rintro t ⟨rfl, hcourse, hnew⟩
    exact ⟨hnew, hcourse⟩
  | _ => exact ⟨fun _ _ h => h, fun _ h => h.elim⟩

/-- A subscription is added that follows a template, and none is changed. -/
theorem reach_subscriptions (r : Request) :
    (∀ sub sub', ¬ (r.reach b new ts).subscriptions.changes sub sub') ∧
      ∀ sub, (r.reach b new ts).subscriptions.adds sub →
        new sub.id ∧ ∃ t ∈ ts.templates, t.id = sub.templateId := by
  cases r with
  | subscribe master child =>
    refine ⟨fun _ _ h => h, ?_⟩
    rintro sub ⟨⟨t, ht, hfollows⟩, -, -, hnew⟩
    exact ⟨hnew, t, List.mem_of_find?_eq_some ht, hfollows.symm⟩
  | _ => exact ⟨fun _ _ h => h, fun _ h => h.elim⟩

/-- A child tag is added for a copy, and only the changes and the time of another one are changed. -/
theorem reach_childTags (r : Request) :
    (∀ c c', (r.reach b new ts).childTags.changes c c' → c.Rewritten c') ∧
      ∀ c, (r.reach b new ts).childTags.adds c → new c.content.id ∧
        ∃ t content, ts.followed? c.subscriptionId = some t ∧
          c.migrationId = some (t.migrationId b.settings.marker content) := by
  cases r with
  | sync id master =>
    refine ⟨fun _ _ h => h.1, ?_⟩
    rintro c ⟨⟨t, ht, hcopy, -⟩, -, hnew⟩
    exact ⟨hnew, t, master, hcopy.subscriptionId ▸ ht, hcopy.migrationId⟩
  | edit => exact ⟨fun _ _ h => h.1, fun _ h => h.elim⟩
  | _ => exact ⟨fun _ _ h => h.elim, fun _ h => h.elim⟩

end Request

/-- Requests leave tables that go back to templates, if what they draw was not drawn before. -/
theorem Tables.Rooted.touched {b : Rulebook} {drawn new : Uuid → Prop} {ts ts' : Tables}
    (h : ts.Rooted b drawn) (hnew : ∀ id, new id → ¬ drawn id) {r : Request}
    (htouches : (r.reach b new ts).Touches ts ts') :
    ts'.Rooted b fun id => drawn id ∨ new id := by
  obtain ⟨hkeepsTemplates, haddsTemplate⟩ := r.reach_templates b new ts
  obtain ⟨hkeepsSubscriptions, haddsSubscription⟩ := r.reach_subscriptions b new ts
  obtain ⟨hchangesCopy, haddsCopy⟩ := r.reach_childTags b new ts
  have htemplates : ∀ t ∈ ts.templates, t ∈ ts'.templates :=
    fun t ht => htouches.templates.mem_of_mem hkeepsTemplates ht
  have hsubscriptions : ∀ sub ∈ ts.subscriptions, sub ∈ ts'.subscriptions :=
    fun sub hsub => htouches.subscriptions.mem_of_mem hkeepsSubscriptions hsub
  constructor
  case courses =>
    exact htouches.templates.nodup_map h.courses (fun t ht => (haddsTemplate t ht).2)
      fun t t' ht => absurd ht (hkeepsTemplates t t')
  case templatesDrawn =>
    exact htouches.templates.forall_mem (fun t ht => .inl (h.templatesDrawn t ht))
      (fun t ht => .inr (haddsTemplate t ht).1) fun t t' ht => absurd ht (hkeepsTemplates t t')
  case subscriptionIds =>
    refine htouches.subscriptions.nodup_map h.subscriptionIds (fun sub hsub row hrow heq => ?_)
      fun sub sub' hsub => absurd hsub (hkeepsSubscriptions sub sub')
    exact hnew sub.id (haddsSubscription sub hsub).1 (heq ▸ h.subscriptionsDrawn row hrow)
  case subscriptionsDrawn =>
    exact htouches.subscriptions.forall_mem (fun sub hsub => .inl (h.subscriptionsDrawn sub hsub))
      (fun sub hsub => .inr (haddsSubscription sub hsub).1)
      fun sub sub' hsub => absurd hsub (hkeepsSubscriptions sub sub')
  case followed =>
    refine htouches.subscriptions.forall_mem (fun sub hsub => ?_) (fun sub hsub => ?_)
      fun sub sub' hsub => absurd hsub (hkeepsSubscriptions sub sub')
    · obtain ⟨t, ht, hfollows⟩ := h.followed sub hsub
      exact ⟨t, htemplates t ht, hfollows⟩
    · obtain ⟨-, t, ht, hfollows⟩ := haddsSubscription sub hsub
      exact ⟨t, htemplates t ht, hfollows⟩
  case contentsDrawn =>
    refine htouches.childTags.forall_mem (fun c hc => .inl (h.contentsDrawn c hc))
      (fun c hc => .inr (haddsCopy c hc).1) fun c c' hc hdrawn => ?_
    obtain ⟨changes, time, rfl⟩ := hchangesCopy c c' hc
    exact hdrawn
  case copies =>
    refine htouches.childTags.forall_mem (fun c hc => ?_) (fun c hc => ?_) fun c c' hc hcopied => ?_
    · obtain ⟨sub, hsub, hours, t, ht, hfollows, hderived⟩ := h.copies c hc
      exact ⟨sub, hsubscriptions sub hsub, hours, t, htemplates t ht, hfollows, hderived⟩
    · obtain ⟨-, t, content, hfollowed, hderived⟩ := haddsCopy c hc
      obtain ⟨ht, sub, hsub, hours, hfollows⟩ := Tables.of_followed? hfollowed
      exact ⟨sub, hsubscriptions sub hsub, hours, t, htemplates t ht, hfollows, content, hderived⟩
    · obtain ⟨changes, time, rfl⟩ := hchangesCopy c c' hc
      exact hcopied

/-! ## The part of a template -/

namespace Tables

/-- The rows of a template, of its subscriptions and of their copies. -/
def part (x : Uuid) (ts : Tables) : Tables where
  templates := ts.templates.filter fun t => t.id = x
  subscriptions := ts.subscriptions.filter fun sub => sub.templateId = x
  masterTags := ts.masterTags.filter fun m => m.templateId = x
  childTags := ts.childTags.filter fun c =>
    (ts.subscriptions.filter fun sub => sub.templateId = x).any fun sub => sub.id = c.subscriptionId

variable {b : Rulebook} {drawn new : Uuid → Prop} {ts ts' : Tables} {x : Uuid} {content : ContentKey}

/-- What a request is about is a template that is held. -/
theorem Rooted.exists_template (h : ts.Rooted b drawn) {r : Request}
    (hr : r.template? (.of ts) = some x) : ∃ t ∈ ts.templates, t.id = x := by
  have hcourse : ∀ course, (Stored.of ts).templateIdOf? course = some x →
      ∃ t ∈ ts.templates, t.id = x := by
    intro course hcourse
    obtain ⟨t, ht, hid⟩ := Option.map_eq_some_iff.1 hcourse
    exact ⟨t, List.mem_of_find?_eq_some ht, hid⟩
  have hfollowed : ∀ id, (Stored.of ts).followedId? id = some x → ∃ t ∈ ts.templates, t.id = x := by
    intro id hid
    obtain ⟨sub, hsub, rfl⟩ := Option.map_eq_some_iff.1 hid
    exact h.followed sub (List.mem_of_find?_eq_some hsub)
  have hcopied : ∀ content, (Stored.of ts).copiedId? content = some x →
      ∃ t ∈ ts.templates, t.id = x := by
    intro content hcontent
    obtain ⟨c, -, hid⟩ := Option.bind_eq_some_iff.1 hcontent
    exact hfollowed _ hid
  cases r with
  | makeBlueprint | subscribe | setLocks | showContent => exact hcourse _ hr
  | sync | status => exact hfollowed _ hr
  | inspect | edit | preview => exact hcopied _ hr
  | listSchemas | showConfig => cases hr

/-- A subscription that follows another template is none of the part. -/
theorem Rooted.any_eq_false (h : ts.Rooted b drawn) {id : Uuid}
    (hother : (Stored.of ts).followedId? id ≠ some x) :
    ((ts.subscriptions.filter fun sub => sub.templateId = x).any fun sub => sub.id = id) = false := by
  rw [List.any_eq_false]
  intro sub hsub hid
  obtain ⟨hsub, hfollows⟩ := List.mem_filter.1 hsub
  have hid : sub.id = id := of_decide_eq_true hid
  refine hother (Option.map_eq_some_iff.2 ⟨sub, ?_, of_decide_eq_true hfollows⟩)
  exact (find?_eq_some_iff h.subscriptionIds).2 ⟨hsub, hid⟩

theorem followedId?_of_followed? {id : Uuid} {t : Template} (h : ts.followed? id = some t) :
    (Stored.of ts).followedId? id = some t.id := by
  obtain ⟨sub, hsub, ht⟩ := Option.bind_eq_some_iff.1 h
  have hid : t.id = sub.templateId := by simpa using List.find?_some ht
  exact Option.map_eq_some_iff.2 ⟨sub, hsub, hid.symm⟩

section Elsewhere

variable {r : Request} (hother : r.template? (.of ts) ≠ some x)
include hother

variable (new) in
/-- The master tags that a request may add or change are those of the template that it is about. -/
theorem masterTags_elsewhere (hkeyed : ts.Keyed b) :
    (∀ m, (r.reach b new ts).masterTags.adds m → m.templateId ≠ x) ∧
      ∀ m m', m ∈ ts.masterTags → (r.reach b new ts).masterTags.changes m m' →
        m.templateId ≠ x ∧ m'.templateId ≠ x := by
  cases r with
  | setLocks course content locks on =>
    have hcourse : ∀ t, ts.templateOf? course = some t → t.id ≠ x :=
      fun t ht hid => hother (Option.map_eq_some_iff.2 ⟨t, ht, hid⟩)
    constructor
    · rintro m ⟨⟨t, ht, htag⟩, -⟩
      exact htag.templateId ▸ hcourse t ht
    · rintro m m' hm ⟨⟨restrictions, time, rfl⟩, t, ht, hid⟩
      -- the identifier of the tag tells its template
      obtain ⟨t', -, htemplate, hderived⟩ := hkeyed.derived m hm
      have hsame : m.templateId = t.id :=
        htemplate.symm.trans (Template.migrationId_inj (hderived.symm.trans hid)).1
      have hne : m.templateId ≠ x := hsame ▸ hcourse t ht
      exact ⟨hne, hne⟩
  | sync id master =>
    refine ⟨?_, fun _ _ _ h => h.elim⟩
    rintro m ⟨⟨t, ht, htag⟩, -⟩ hid
    refine hother ((followedId?_of_followed? ht).trans (congrArg some ?_))
    exact htag.templateId.symm.trans hid
  | _ => exact ⟨fun _ h => h.elim, fun _ _ _ h => h.elim⟩

variable (new) in
/-- The child tags that a request may add or change are those of the template that it is about. -/
theorem childTags_elsewhere (hkeyed : ts.Keyed b) :
    (∀ c, (r.reach b new ts).childTags.adds c →
      (Stored.of ts).followedId? c.subscriptionId ≠ some x) ∧
      ∀ c c', c ∈ ts.childTags → (r.reach b new ts).childTags.changes c c' →
        (Stored.of ts).followedId? c.subscriptionId ≠ some x := by
  cases r with
  | sync id master =>
    constructor
    · rintro c ⟨⟨t, -, hcopy, -⟩, -⟩
      exact hcopy.subscriptionId ▸ hother
    · rintro c c' - ⟨-, t, -, hcopy⟩
      exact hcopy.subscriptionId ▸ hother
  | edit content =>
    refine ⟨fun _ h => h.elim, ?_⟩
    rintro c c' hc ⟨-, rfl⟩ hid
    refine hother (Option.bind_eq_some_iff.2 ⟨c, ?_, hid⟩)
    exact (find?_eq_some_iff hkeyed.contents).2 ⟨hc, rfl⟩
  | _ => exact ⟨fun _ h => h.elim, fun _ _ _ h => h.elim⟩

/-- A request about another template, or about none, leaves the rows of a template as they are. -/
theorem Rooted.part_eq (h : ts.Rooted b drawn) (hkeyed : ts.Keyed b) (hx : drawn x)
    (hnew : ∀ id, new id → ¬ drawn id) (htouches : (r.reach b new ts).Touches ts ts') :
    ts'.part x = ts.part x := by
  obtain ⟨hkeepsTemplates, haddsTemplate⟩ := r.reach_templates b new ts
  have htemplates : (ts'.templates.filter fun t => t.id = x) =
      ts.templates.filter fun t => t.id = x := by
    refine htouches.templates.filter_eq (fun t ht => decide_eq_false fun hid => ?_)
      fun t t' _ ht => absurd ht (hkeepsTemplates t t')
    exact hnew t.id (haddsTemplate t ht).1 (hid ▸ hx)
  have hsubscriptions : (ts'.subscriptions.filter fun sub => sub.templateId = x) =
      ts.subscriptions.filter fun sub => sub.templateId = x := by
    cases r with
    | subscribe master child =>
      refine htouches.subscriptions.filter_eq (fun sub hsub => decide_eq_false fun hid => ?_)
        fun _ _ _ hsub => hsub.elim
      obtain ⟨⟨t, ht, hfollows⟩, -⟩ := hsub
      exact hother (Option.map_eq_some_iff.2 ⟨t, ht, hfollows.symm.trans hid⟩)
    | _ => exact htouches.subscriptions.filter_eq (fun _ hsub => hsub.elim) fun _ _ _ hsub => hsub.elim
  obtain ⟨haddsMaster, hchangesMaster⟩ := masterTags_elsewhere new hother hkeyed
  have hmasterTags : (ts'.masterTags.filter fun m => m.templateId = x) =
      ts.masterTags.filter fun m => m.templateId = x :=
    htouches.masterTags.filter_eq (fun m hm => decide_eq_false (haddsMaster m hm))
      fun m m' hmem hm => ⟨decide_eq_false (hchangesMaster m m' hmem hm).1,
        decide_eq_false (hchangesMaster m m' hmem hm).2⟩
  obtain ⟨haddsCopy, hchangesCopy⟩ := childTags_elsewhere new hother hkeyed
  have hchildTags : (ts'.childTags.filter fun c =>
      (ts.subscriptions.filter fun sub => sub.templateId = x).any fun sub =>
        sub.id = c.subscriptionId) = (ts.part x).childTags := by
    refine htouches.childTags.filter_eq (fun c hc => h.any_eq_false (haddsCopy c hc))
      fun c c' hmem hc => ?_
    obtain ⟨changes, time, rfl⟩ := (r.reach_childTags b new ts).1 c c' hc
    have hnone := h.any_eq_false (hchangesCopy _ _ hmem hc)
    exact ⟨hnone, hnone⟩
  rw [part, htemplates, hsubscriptions, hmasterTags, hchildTags, part]

end Elsewhere

end Tables

end CourseBlueprint
