import CourseBlueprint.Proofs.Command.Frames
import CourseBlueprint.Proofs.Isolation.Saving

/-!
# Commands about one blueprint

What is asked about a blueprint, its subscriptions or its copies depends on its portion alone
(`Blueprint.dependsOn_looking`), and so does what a sync or an edit of its copies answers
(`Blueprint.dependsOn_working`).
-/

namespace CourseBlueprint

namespace Blueprint

variable {b : Rulebook} {bp : Blueprint} {P : Portion → Prop} {α β : Type}

/-- Work on an item depends on what is shown, if the desk is used no further than for its item. -/
theorem dependsOn_on_bind {i : Item} {x : Work α} {f : α × Desk → Action Store β}
    {Q : α → Portion → Prop} {R : β → Portion → Prop}
    (hx : Action.DependsOn (bp.AtWork b i) (fun k => P k.1) x fun a k => Q a k.1)
    (hf : ∀ a i', ∃ y, (∀ d : Desk, d.item = i' → f (a, d) = y) ∧
      Action.DependsOn (bp.Shown b) (Q a) y R) :
    Action.DependsOn (bp.Shown b) P (Work.on i x >>= f) R := by
  rintro p hp ⟨s₀, hs₀⟩
  have hdesk : ∀ s, bp.Shown b s p → bp.AtWork b i ⟨s, i, [], []⟩ (p, i) :=
    fun s hs => ⟨hs, rfl, rfl, rfl, rfl⟩
  rcases hx (p, i) hp ⟨_, hdesk s₀ hs₀⟩ with ⟨e, hfails⟩ | ⟨a, ⟨p', i'⟩, hp', hends⟩
  · refine .inl ⟨e, fun s hs => ?_⟩
    rw [Action.run_bind, Work.on, Action.run_of]
    have hfails := hfails _ (hdesk s hs)
    rcases hrun : x.run ⟨s, i, [], []⟩ with ⟨e' | a, d⟩
    · rw [hrun] at hfails
      obtain rfl := Except.error.inj hfails
      rfl
    · rw [hrun] at hfails
      cases hfails
  · have hon : ∀ s, bp.Shown b s p → ∃ d : Desk, (Work.on i x).run s = (.ok (a, d), d.store) ∧
        bp.AtWork b i d (p', i') := by
      intro s hs
      obtain ⟨d, hrun, hd⟩ := hends _ (hdesk s hs)
      refine ⟨d, ?_, hd⟩
      rw [Work.on, Action.run_of, hrun]
    obtain ⟨y, hy, hdepends⟩ := hf a i'
    have hthen : ∀ s, bp.Shown b s p → ∃ d : Desk, bp.Shown b d.store p' ∧
        (Work.on i x >>= f).run s = y.run d.store := by
      intro s hs
      obtain ⟨d, hrun, hd⟩ := hon s hs
      refine ⟨d, hd.shown, ?_⟩
      rw [Action.run_bind_ok hrun, hy d hd.item]
    obtain ⟨d₀, hd₀, -⟩ := hthen s₀ hs₀
    rcases hdepends p' hp' ⟨d₀.store, hd₀⟩ with ⟨e, hfails⟩ | ⟨c, p'', hp'', hends'⟩
    · refine .inl ⟨e, fun s hs => ?_⟩
      obtain ⟨d, hd, hrun⟩ := hthen s hs
      rw [hrun, hfails d.store hd]
    · refine .inr ⟨c, p'', hp'', fun s hs => ?_⟩
      obtain ⟨d, hd, hrun⟩ := hthen s hs
      rw [hrun]
      exact hends' d.store hd

theorem dependsOn_examine {i : Item} {x : Work α}
    (hx : Action.DependsOn (bp.AtWork b i) (fun k => P k.1) x fun _ k => P k.1) :
    Action.DependsOn (bp.Shown b) P (Command.examine i x) fun _ => P :=
  dependsOn_on_bind hx fun _ _ => ⟨_, fun _ _ => rfl, .pure fun _ hp => hp⟩

/-! ## Rows that a command cannot do without -/

/-- What is required is what was found. -/
theorem dependsOn_require {x : Action Store (Option α)} {F : α → Prop} (e : Failure)
    (hx : Action.DependsOn (bp.Shown b) P x fun found p => (∀ a ∈ found, F a) ∧ P p) :
    Action.DependsOn (bp.Shown b) P (x >>= fun found => liftM (Result.ofOption e found))
      fun a p => F a ∧ P p := by
  refine hx.bind fun found => .under fun hfound => .liftM fun a ha p hp => ⟨hfound a ?_, hp⟩
  cases found with
  | none => cases ha
  | some a' => exact congrArg some (Except.ok.inj ha)

open Command

theorem dependsOn_templateOf {course : Uuid} (h : ∃ t ∈ bp.templates, t.courseId = course) :
    Action.DependsOn (bp.Shown b) P (templateOf course) fun t p =>
      (t ∈ bp.templates ∧ t.id = bp.id) ∧ P p :=
  dependsOn_require _ (dependsOn_templateOf? h)

theorem dependsOn_template {id : Uuid} (h : id = bp.id) :
    Action.DependsOn (bp.Shown b) P (template id) fun t p =>
      (t ∈ bp.templates ∧ t.id = bp.id) ∧ P p := by
  rw [h]
  exact dependsOn_require _ dependsOn_template?

theorem dependsOn_subscription {id : Uuid} (h : ∃ sub ∈ bp.subscriptions, sub.id = id) :
    Action.DependsOn (bp.Shown b) P (subscription id) fun sub p =>
      (sub ∈ bp.subscriptions ∧ sub.templateId = bp.id) ∧ P p :=
  dependsOn_require _ (dependsOn_subscription? h)

theorem dependsOn_copyTag {content : ContentKey} (hown : bp.own content) :
    Action.DependsOn (bp.Shown b) P (copyTag content) fun tag p =>
      (bp.IsCopy b tag ∧ tag.content = content) ∧ P p :=
  dependsOn_require _ (dependsOn_childTag? hown)

theorem dependsOn_savedTag {content : ContentKey} (hown : bp.own content) :
    Action.DependsOn (bp.Shown b) P (savedTag content) fun tag p =>
      (bp.IsCopy b tag ∧ tag.content = content) ∧ P p :=
  dependsOn_require _ (dependsOn_childTag? hown)

theorem dependsOn_load {sub : Subscription} (h : sub.templateId = bp.id) :
    Action.DependsOn (bp.Shown b) P (Migration.load sub) fun m p => m.subscription = sub ∧ P p := by
  rw [Migration.load, h]
  exact dependsOn_masterTagsOf.bind fun tags => .pure fun _ hp => ⟨rfl, hp⟩

/-! ## Looking -/

/-- Looking up the locks of many items, all of them of the blueprint. -/
theorem dependsOn_fill {idOf : Item → Option String} (template? : Option Uuid)
    {give : Restrictions → Item → Item} {items : List Item} (hgive : ∀ r (i : Item), i.Like (give r i))
    (hids : ∀ i ∈ items, ∀ id ∈ idOf i, bp.Derives b id) :
    Action.DependsOn (bp.Shown b) P (Preload.fill idOf template? give items) fun found p =>
      (∀ i' ∈ found.2, ∃ i ∈ items, i.Like i') ∧ P p := by
  refine .of_read (g := fun p => ((items.filterMap idOf).length,
    items.map (Preload.filled idOf template? give p.masterTags))) fun s p hs => ?_
  obtain ⟨ts, hstored, hheld⟩ := hs.held
  have hrows : s.seen.masterTags = .ok ts.masterTags := by rw [hs.seen, hstored]; rfl
  have hlocks : ∀ i ∈ items, Preload.filled idOf template? give ts.masterTags i =
      Preload.filled idOf template? give p.masterTags i := by
    intro i hi
    unfold Preload.filled
    cases hid : idOf i with
    | none => rfl
    | some id =>
      have hours : ∀ row ∈ ts.masterTags.filter fun m => template?.all fun u => m.templateId = u,
          decide (row.migrationId = id) = true → decide (row.templateId = bp.id) = true := by
        intro row hrow htest
        have hsame : row.migrationId = id := of_decide_eq_true htest
        exact decide_eq_true (hheld.derived row (List.mem_filter.1 hrow).1 (hsame ▸ hids i hi id hid))
      simp only [MasterTag.locksUnder]
      rw [← hheld.masterTags, List.filter_comm, Tables.find?_filter hours]
  have hrun : (Preload.fill idOf template? give items).run s = (.ok (_, items.map _), _) :=
    Preload.run_fill hrows hheld.migrationIds
  rw [List.map_congr_left hlocks] at hrun
  refine ⟨_, hrun, ?_, ?_⟩
  · split
    · exact hs
    · exact hs.noting _
  · intro i' hi'
    obtain ⟨i, hi, rfl⟩ := List.mem_map.1 hi'
    refine ⟨i, hi, ?_⟩
    unfold Preload.filled
    split
    · exact ⟨rfl, rfl, rfl⟩
    · exact hgive _ i

/-- The only one of the items after a look-up is like the one before. -/
theorem like_only {i : Item} {items : List Item} (h : ∀ i' ∈ items, ∃ i₀ ∈ [i], i₀.Like i') :
    i.Like (only i items) := by
  cases items with
  | nil => exact ⟨rfl, rfl, rfl⟩
  | cons i' items =>
    obtain ⟨i₀, hi₀, hlike⟩ := h i' List.mem_cons_self
    rw [List.mem_singleton.1 hi₀] at hlike
    exact hlike

theorem dependsOn_masters {course : Uuid} (h : ∃ t ∈ bp.templates, t.courseId = course)
    (items : List Item) :
    Action.DependsOn (bp.Shown b) P (Preload.masters course b.settings.marker items) fun found p =>
      (∀ i' ∈ found.2, ∃ i ∈ items, i.Like i') ∧ P p := by
  refine (dependsOn_templateOf? h).bind fun t? => .under fun ht => ?_
  cases t? with
  | none => exact .pure fun _ hp => ⟨fun i hi => ⟨i, hi, rfl, rfl, rfl⟩, hp⟩
  | some t =>
    refine dependsOn_fill _ (fun r i => ⟨rfl, rfl, rfl⟩) fun i _ id hid => ⟨t, (ht t rfl).2, i.key, ?_⟩
    unfold Preload.masterId? at hid
    split at hid
    · exact (Option.some.inj hid).symm
    · cases hid

theorem dependsOn_copies {items : List Item}
    (h : ∀ i ∈ items, ∀ id ∈ i.migrationId, bp.Derives b id) :
    Action.DependsOn (bp.Shown b) P (Preload.copies b.settings.marker items) fun found p =>
      (∀ i' ∈ found.2, ∃ i ∈ items, i.Like i') ∧ P p := by
  refine dependsOn_fill _ (fun r i => ⟨rfl, rfl, rfl⟩) fun i hi id hid => h i hi id ?_
  unfold Preload.copyId? at hid
  split at hid
  · cases hid
  · exact (Option.filter_eq_some_iff.1 hid).1

theorem dependsOn_showContent {course : Uuid} (h : ∃ t ∈ bp.templates, t.courseId = course)
    (content : ContentKey) :
    Action.DependsOn (bp.Shown b) P (showContent b course content) fun _ => P := by
  refine (dependsOn_templateOf h).bind fun t => .under fun ht => ?_
  refine (dependsOn_masters h _).bind fun found => .under fun hfound => ?_
  have hlike := like_only hfound
  have hid : ∀ id ∈ (only (Item.persisted content ∅) found.2).migrationId, bp.Derives b id := by
    rw [hlike.migrationId]
    exact nofun
  refine (dependsOn_examine (dependsOn_summary hid .master)).bind fun summary => ?_
  refine (dependsOn_masterTag? ⟨t, ht.2, content, rfl⟩).bind fun tag? => ?_
  split
  · exact .pure fun _ hp => hp
  · exact .pure fun _ hp => hp

theorem dependsOn_inspect {content : ContentKey} (hown : bp.own content) :
    Action.DependsOn (bp.Shown b) P (inspect b content) fun _ => P := by
  refine (dependsOn_copyTag hown).bind fun tag => .under fun htag => ?_
  have hids : ∀ i ∈ [copyItem tag ∅], ∀ id ∈ i.migrationId, bp.Derives b id := by
    intro i hi
    rw [List.mem_singleton.1 hi]
    exact htag.1.derived
  refine (dependsOn_copies hids).bind fun found => .under fun hfound => ?_
  have hlike := like_only hfound
  have hid : ∀ id ∈ (only (copyItem tag ∅) found.2).migrationId, bp.Derives b id := by
    rw [hlike.migrationId]
    exact htag.1.derived
  exact (dependsOn_examine (dependsOn_summary hid .child)).bind fun summary => .pure fun _ hp => hp

theorem dependsOn_status {id : Uuid} (h : ∃ sub ∈ bp.subscriptions, sub.id = id) :
    Action.DependsOn (bp.Shown b) P (status id) fun _ => P := by
  refine (dependsOn_subscription h).bind fun sub => .under fun hsub => ?_
  exact (dependsOn_childTagsOf hsub.1).bind fun tags => .under fun _ => .pure fun _ hp => hp

/-- The item of a copy. -/
theorem IsCopy.isItem {tag : ChildTag} (h : bp.IsCopy b tag) (attributes : Dict Json) :
    bp.IsItem b (copyItem tag attributes) := ⟨h.own, h.own, h.derived⟩

theorem IsCopy.exists_subscription {tag : ChildTag} (h : bp.IsCopy b tag) :
    ∃ sub ∈ bp.subscriptions, sub.id = tag.subscriptionId := by
  obtain ⟨sub, hsub, hid⟩ := List.any_eq_true.1 h.follows
  exact ⟨sub, hsub, of_decide_eq_true hid⟩

theorem dependsOn_preview {content : ContentKey} (hown : bp.own content) :
    Action.DependsOn (bp.Shown b) P (preview b content) fun _ => P := by
  refine (dependsOn_copyTag hown).bind fun tag => .under fun htag => ?_
  refine (dependsOn_subscription htag.1.exists_subscription).bind fun sub => .under fun hsub => ?_
  refine (dependsOn_load hsub.2).bind fun m => .under fun _ => ?_
  have hitem := htag.1.isItem (∅ : Dict Json)
  refine .bind (dependsOn_examine ?_) fun answer => .pure fun _ hp => hp
  refine (dependsOn_keptCategories hitem).bind fun kept => ?_
  split
  · exact (dependsOn_isRestricted hitem.derived .any).bind fun _ => .pure fun _ hp => hp
  · exact .bind (.pure fun _ hp => hp) fun _ => .pure fun _ hp => hp

/-! ## Editing and syncing -/

theorem isItem_editedItem {tag : ChildTag} (h : bp.IsCopy b tag) (changes : Changes) :
    bp.IsItem b (editedItem tag changes) := by
  obtain ⟨attributes, pending, hitem⟩ := editedItem_frame tag changes
  rw [hitem]
  exact ⟨h.own, h.own, h.derived⟩

theorem isItem_copyWanted {tag : ChildTag} (h : bp.IsCopy b tag) (assignments : List Assignment) :
    bp.IsItem b (copyWanted tag assignments) := by
  obtain ⟨attributes, pending, hitem⟩ := copyWanted_frame tag assignments
  rw [hitem]
  exact ⟨h.own, h.own, h.derived⟩

theorem isItem_newCopy {key : ContentKey} (hown : bp.own key) {id : String} (hid : bp.Derives b id)
    (assignments : List Assignment) : bp.IsItem b (newCopy key id assignments) := by
  obtain ⟨attributes, pending, hitem⟩ := newCopy_frame key id assignments
  rw [hitem]
  refine ⟨hown, hown, ?_⟩
  rintro id' ⟨⟩
  exact hid

theorem dependsOn_edit {content : ContentKey} (hown : bp.own content) (changes : Changes) :
    Action.DependsOn (bp.Shown b) (bp.Offers 0) (edit b content changes) fun _ => bp.Offers 0 := by
  refine (dependsOn_copyTag hown).bind fun tag => .under fun htag => ?_
  simp only
  split
  · exact .fail_bind _ _
  · have hcontext : ∀ m ∈ (if changes.system then Context.system else Context.user).migration,
        m.subscription ∈ bp.subscriptions := by
      cases changes.system with
      | true => exact nofun
      | false => exact nofun
    refine dependsOn_on_bind (dependsOn_save (isItem_editedItem htag.1 changes) hcontext _)
      fun outcome _ => ?_
    cases outcome with
    | rejected rejection =>
      refine ⟨Store.childTag? content >>= fun tag? =>
        pure { childTags := tag?.toList, rejected := some rejection }, fun _ _ => rfl, ?_⟩
      exact (dependsOn_childTag? hown).bind fun tag? => .under fun _ => .pure fun _ hp => hp
    | saved report =>
      refine ⟨Store.childTag? content >>= fun tag? => pure {
        childTags := tag?.toList
        save := some report
        messages := [editMessage content changes.system report.merge] }, fun _ _ => rfl, ?_⟩
      exact (dependsOn_childTag? hown).bind fun tag? => .under fun _ => .pure fun _ hp => hp

theorem dependsOn_saveImported {m : Migration} (hm : m.subscription ∈ bp.subscriptions) {i : Item}
    (hi : bp.IsItem b i) :
    Action.DependsOn (bp.Shown b) (bp.Offers 0) (saveImported b m i) fun _ => bp.Offers 0 := by
  have hcontext : ∀ m' ∈ (Context.importing m).migration, m'.subscription ∈ bp.subscriptions := by
    rintro m' ⟨⟩
    exact hm
  refine dependsOn_on_bind (dependsOn_save hi hcontext _) fun outcome item => ?_
  cases outcome with
  | saved report => exact ⟨pure (report, item), fun d hd => hd ▸ rfl, .pure fun _ hp => hp⟩
  | rejected r => exact ⟨.fail (.importRejected r.columns), fun _ _ => rfl, .fail _⟩

/-- The copy is made of content that no copy of another blueprint is. -/
theorem dependsOn_createCopy {m : Migration} (hm : m.subscription ∈ bp.subscriptions) (kind : Kind)
    {id : String} (hid : bp.Derives b id) (assignments : List Assignment) :
    Action.DependsOn (bp.Shown b) (bp.Offers 1) (createCopy b m kind id assignments)
      fun _ => bp.Offers 0 := by
  refine dependsOn_newId.bind fun newId => .under fun hown => ?_
  have hown : bp.own ⟨kind, newId⟩ := hown Nat.one_pos kind
  refine (dependsOn_saveImported hm (isItem_newCopy hown hid assignments)).bind fun saved => ?_
  exact (dependsOn_savedTag hown).mono (fun _ h => h) fun _ _ h => h.2

theorem dependsOn_trackedMasterTag {t : Template} (ht : t.id = bp.id) (content : ContentKey) {n : Nat} :
    Action.DependsOn (bp.Shown b) (bp.Offers n) (trackedMasterTag b t content)
      fun _ => bp.Offers (n - 1) := by
  have hid : bp.Derives b (t.migrationId b.settings.marker content) := ⟨t, ht, content, rfl⟩
  refine (dependsOn_masterTag? hid).bind fun tag? => ?_
  cases tag? with
  | some tag => exact .pure fun _ hp => hp.mono (by omega)
  | none =>
    refine (dependsOn_newMasterTag t content _).bind fun tag => .under fun htag => ?_
    obtain ⟨htemplate, hmigrationId, hdated⟩ := htag
    exact (dependsOn_saveMasterTag (htemplate.trans ht) (hmigrationId ▸ hid) hdated).bind fun _ =>
      .pure fun _ hp => hp

theorem dependsOn_sync {id : Uuid} (h : ∃ sub ∈ bp.subscriptions, sub.id = id) (master : ContentKey)
    (assignments : List Assignment) :
    Action.DependsOn (bp.Shown b) (bp.Offers 2) (sync b id master assignments) fun _ => bp.Offers 0 := by
  unfold sync
  split
  · exact .fail_bind _ _
  · refine (dependsOn_subscription h).bind fun sub => .under fun hsub => ?_
    refine (dependsOn_template hsub.2).bind fun t => .under fun ht => ?_
    refine (dependsOn_trackedMasterTag ht.2 master).bind fun masterTag => ?_
    refine (dependsOn_childTagsOf hsub.1).bind fun tags => .under fun htags => ?_
    refine (dependsOn_load hsub.2).bind fun m => .under fun hm => ?_
    have hm : m.subscription ∈ bp.subscriptions := hm ▸ hsub.1
    simp only
    split
    · refine (dependsOn_createCopy hm _ ⟨t, ht.2, master, rfl⟩ assignments).bind fun tag => ?_
      exact .pure fun _ hp => hp
    · next existing hexisting =>
      have hcopy := htags existing (List.mem_of_find?_eq_some hexisting)
      refine .bind ((dependsOn_saveImported hm (isItem_copyWanted hcopy assignments)).mono
        (fun _ hp => hp.mono (by omega)) fun _ _ hp => hp) fun saved => ?_
      exact (dependsOn_savedTag hcopy.own).bind fun tag => .under fun _ => .pure fun _ hp => hp

end Blueprint

/-! ## Requests -/

namespace Request

/-- Whether a request only looks at blueprint content, a subscription or a copy. -/
def looks : Request → Bool
  | showContent _ _ | inspect _ | status _ | preview _ => true
  | _ => false

/-- How many identifiers are drawn at most until the content of a new copy has one. -/
def drawsForCopy : Request → Nat
  | sync _ _ _ => 2
  | _ => 0

end Request

namespace Blueprint

variable {b : Rulebook} {bp : Blueprint} {P : Portion → Prop}

/-- Whether what a request looks at or works on is of a blueprint. -/
def Names (bp : Blueprint) : Request → Prop
  | .showContent course _ => ∃ t ∈ bp.templates, t.courseId = course
  | .inspect content | .preview content | .edit content _ _ _ => bp.own content
  | .status id | .sync id _ _ => ∃ sub ∈ bp.subscriptions, sub.id = id
  | _ => False

/-- A look at a blueprint depends on its portion alone. -/
theorem dependsOn_looking {q : Request} (hlooks : q.looks = true) (h : bp.Names q) :
    Action.DependsOn (bp.Shown b) P (q.run b) fun _ => P := by
  cases q with
  | showContent course content => exact dependsOn_showContent h content
  | inspect content => exact dependsOn_inspect h
  | status id => exact dependsOn_status h
  | preview content => exact dependsOn_preview h
  | _ => cases hlooks

/-- Work on copies of a blueprint depends on its portion alone. -/
theorem dependsOn_working {q : Request} (hworks : q.worksOnCopies = true) (h : bp.Names q) :
    Action.DependsOn (bp.Shown b) (bp.Offers q.drawsForCopy) (q.run b) fun _ => bp.Offers 0 := by
  cases q with
  | sync id master texts =>
    exact (Action.DependsOn.liftM fun _ _ _ hp => hp).bind fun assignments =>
      dependsOn_sync h master assignments
  | edit content texts delete system =>
    exact (Action.DependsOn.liftM fun _ _ _ hp => hp).bind fun assignments =>
      dependsOn_edit h ⟨assignments, delete, system⟩
  | _ => cases hworks

end Blueprint

end CourseBlueprint
