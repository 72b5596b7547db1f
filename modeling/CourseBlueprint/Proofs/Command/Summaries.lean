import CourseBlueprint.Proofs.Command.Rewriting
import CourseBlueprint.Proofs.Save.LockQueries

/-!
# The two sides of a lock

What is shown of blueprint content and what is shown of its copies goes by the same master tag: every copy
has one (`Stored.Mastered`), which is looked up by its identifier on the side of the copy (`run_inspect`)
and among those of the template on the side of the blueprint (`run_showContent`). So the two sides never
contradict each other (`sides_agree`), though on the side of the blueprint a lock counts also where no
column is registered for it.
-/

namespace CourseBlueprint

/-! ## Master tags of copies -/

/-- Whether all child tags are those of copies of content with a master tag. -/
def Stored.Mastered (st : Stored) : Prop :=
  ∀ rows, st.childTags = .ok rows → ∀ tag ∈ rows,
    ∃ m, st.HasMasterTag m ∧ tag.migrationId = some m.migrationId

namespace Stored

variable {b : Rulebook} {asked : ContentKey → Prop} {new : Uuid → Prop} {st st' : Stored}

/-- A master tag may get other locks, but none is lost. -/
theorem Change.hasMasterTag (h : st.Change b asked new st') {m : MasterTag} (hm : st.HasMasterTag m) :
    ∃ m', st'.HasMasterTag m' ∧ m'.migrationId = m.migrationId := by
  cases h with
  | template => exact ⟨m, hm, rfl⟩
  | subscription => exact ⟨m, hm, rfl⟩
  | masterTag ht htemplate hid hkind hasked hrows =>
    obtain ⟨rows, hrows', hmem⟩ := hm
    rw [hrows] at hrows'
    obtain rfl := Except.ok.inj hrows'
    exact ⟨m, ⟨_, rfl, List.mem_append_left _ hmem⟩, rfl⟩
  | @locks rows tag r time hrows htag =>
    obtain ⟨rows', hrows', hmem⟩ := hm
    rw [hrows] at hrows'
    obtain rfl := Except.ok.inj hrows'
    have hstays : ∃ m' ∈ Tables.replaceFirst (fun row => row.migrationId = tag.migrationId)
        { tag with restrictions := r, updatedAt := time } rows, m'.migrationId = m.migrationId := by
      refine Tables.exists_mem_replaceFirst (f := MasterTag.migrationId) htag ?_ hmem
      rfl
    obtain ⟨m', hmem', hid⟩ := hstays
    exact ⟨m', ⟨_, rfl, hmem'⟩, hid⟩
  | copy => exact ⟨m, hm, rfl⟩
  | changes hgoverned hset =>
    obtain ⟨rows, time, -, -, rfl⟩ := hset
    exact ⟨m, hm, rfl⟩

theorem Change.mastered (h : st.Change b asked new st') (hst : st.Mastered) : st'.Mastered := by
  have hkept : ∀ {tag : ChildTag}, (∃ m, st.HasMasterTag m ∧ tag.migrationId = some m.migrationId) →
      ∃ m, st'.HasMasterTag m ∧ tag.migrationId = some m.migrationId := by
    rintro tag ⟨m, hm, hid⟩
    obtain ⟨m', hm', hsame⟩ := h.hasMasterTag hm
    exact ⟨m', hm', by rw [hid, hsame]⟩
  intro rows' hrows' tag htag
  refine hkept ?_
  cases h with
  | template => exact hst rows' hrows' tag htag
  | subscription => exact hst rows' hrows' tag htag
  | masterTag => exact hst rows' hrows' tag htag
  | locks => exact hst rows' hrows' tag htag
  | @copy rows t sub master masterTag made hsub ht hfollows hasked hmaster hmasterId hid hkind
      hsubscription hchanges hrows =>
    obtain rfl := Except.ok.inj hrows'
    rcases List.mem_append.1 htag with hold | hmade
    · exact hst rows hrows tag hold
    · rw [List.mem_singleton.1 hmade]
      exact ⟨masterTag, hmaster, by rw [hid, hmasterId]⟩
  | @changes old changes _ hgoverned hset =>
    obtain ⟨rows, time, hrows, hheld, rfl⟩ := hset
    obtain rfl := Except.ok.inj hrows'
    rcases Tables.mem_replaceFirst htag with rfl | hold
    · exact hst rows hrows old (List.mem_of_find?_eq_some hheld)
    · exact hst rows hrows tag hold

end Stored

theorem Store.Moves.mastered {b : Rulebook} {asked : ContentKey → Prop} {s s' : Store}
    (h : s.Moves b asked s') (hs : s.stored.Mastered) : s'.stored.Mastered := by
  induction h with
  | refl => exact hs
  | tail hmoves hmove ih =>
    rcases hmove.rows with hsame | ⟨-, hchange⟩
    · rw [hsame]
      exact ih
    · exact hchange.mastered ih

theorem mastered_runEvents {b : Rulebook} {s : Store} (hclock : s.supply.ShowsDates)
    (hempty : s.stored = .of .empty) (events : List Event) :
    (runEvents b events s).stored.Mastered := by
  have hmoves : s.Moves b (fun _ => True) (runEvents b events s) :=
    moves_runEvents (Store.ready_of_empty hclock hempty) events fun _ _ _ _ => trivial
  refine hmoves.mastered fun rows hrows tag htag => ?_
  rw [hempty] at hrows
  obtain rfl := Except.ok.inj hrows
  exact absurd htag List.not_mem_nil

/-! ## Summaries -/

namespace Restrictions

variable {r : Restrictions} {s : Schema}

/-- What restricts a copy is a lock. -/
theorem anyLocked_of_restrict (h : r.restrict s .any = true) : r.anyLocked = true := by
  refine List.any_eq_true.2 ?_
  rcases restrict_any_iff.1 h with heverything | ⟨g, -, hlocked⟩
  · exact ⟨.everything, Lock.mem_all _, heverything⟩
  · exact ⟨.only g, Lock.mem_all _, hlocked⟩

end Restrictions

theorem Kind.skipsPreload_eq (k : Kind) : k.skipsPreload = !k.allowedInBlueprint := by
  cases k with
  | folder => rfl
  | _ => rfl

namespace Command

/-- To examine an item is to work on it. -/
theorem run_examine {α : Type} {x : Work α} {i : Item} {a : α} {s : Store} {d : Desk}
    (h : x.run ⟨s, i, [], []⟩ = (.ok a, d)) : (examine i x).run s = (.ok a, d.store) := by
  rw [examine, Action.run_bind_ok (Work.run_on_eq_ok.2 ⟨h, rfl⟩)]
  rfl

variable {b : Rulebook} {s : Store} {id : Uuid} {t : Template} {master : ContentKey} {tag : ChildTag}
  {rows : List MasterTag} {m : MasterTag}

/-- A template that is followed is the one of its course. -/
theorem templateOf?_of_follows (hs : s.Ready) (htidy : s.stored.Tidy b) (hfollows : s.Follows id t) :
    (Store.templateOf? t.courseId).run s = (.ok (some t), s) := by
  obtain ⟨subscriptions, templates, sub, -, -, htemplates, hfind⟩ := hfollows
  have hcourses := htidy.courses templates (hs.shown ▸ htemplates)
  rw [Store.run_templateOf?, htemplates, Except.map,
    (Tables.find?_eq_some_iff hcourses).2 ⟨List.mem_of_find?_eq_some hfind, rfl⟩]

/-- What is shown of a copy goes by the locks that are held under its migration identifier. -/
theorem run_inspect (hs : s.Orderly b) (htidy : s.stored.Tidy b) (hcopy : s.CopyOf b id t master tag)
    (hrows : s.stored.masterTags = .ok rows) : ∃ s', (inspect b tag.content).run s = (.ok
      { summary := some (.child ((MasterTag.locksUnder rows
            (t.migrationId b.settings.marker master)).restrict (b.registry tag.content.kind) .any)
          (MasterTag.locksUnder rows (t.migrationId b.settings.marker master))),
        childTags := [tag] }, s') := by
  have hopen : s.isOpen = true := hs.ready.isOpen_of_held hcopy.held
  obtain ⟨ts, hstored, hts⟩ := hs.keyed
  obtain rfl : ts.masterTags = rows := by
    rw [hstored] at hrows
    exact Except.ok.inj hrows
  have hseen : s.seen.masterTags = .ok ts.masterTags := by rw [hs.ready.shown, hrows]
  have hkind : tag.content.kind.allowedInBlueprint = true := by
    obtain ⟨tags, htags, hfind⟩ := Store.childTag?_eq_some hcopy.held
    have hkind := htidy.kinds tags htags tag (List.mem_of_find?_eq_some hfind)
    exact hkind
  have hcopied : b.isCopy (copyItem tag ∅) = true := by
    rw [Rulebook.isCopy]
    simp [copyItem, hcopy.migrationId, b.settings.marks_migrationId]
  have hqualifies : b.qualifies (copyItem tag ∅) = true := by
    unfold Rulebook.qualifies
    rw [hcopied]
    show (!tag.content.kind.skipsPreload && true && true) = true
    rw [Kind.skipsPreload_eq, hkind]
    rfl
  have hlocks : (copyItem tag ∅).locksFrom ts.masterTags =
      MasterTag.locksUnder ts.masterTags (t.migrationId b.settings.marker master) := by
    simp [Item.locksFrom, copyItem, Item.persisted, hcopy.migrationId]
  have hlooked := Preload.run_copies hseen hts.migrationIds b [copyItem tag ∅]
  rw [List.map_singleton, if_pos hqualifies, hlocks] at hlooked
  have hsummary : ∀ (s' : Store) (r : Restrictions),
      (b.summary .user .child).run ⟨s', (copyItem tag ∅).withLocks r, [], []⟩ =
        (.ok (.child (r.restrict (b.registry tag.content.kind) .any) r), _) := fun s' r =>
    Rulebook.run_summary_child (d := ⟨s', (copyItem tag ∅).withLocks r, [], []⟩) hcopied
      (Rulebook.run_restrictionsInForce_of_kept rfl) rfl
  rw [inspect, Action.run_bind_ok (of_copyTag hopen hcopy.held), Action.run_bind_ok hlooked]
  exact ⟨_, Action.run_bind_ok (run_examine (hsummary _ _))⟩

/-- What is shown of blueprint content goes by the locks of its master tag. -/
theorem run_showContent (hs : s.Orderly b) (htidy : s.stored.Tidy b) (hfollows : s.Follows id t)
    (hallowed : master.kind.allowedInBlueprint = true) (hm : s.stored.HasMasterTag m)
    (hid : m.migrationId = t.migrationId b.settings.marker master) :
    ∃ s', (showContent b t.courseId master).run s =
      (.ok { masterTags := [m], summary := some (.master m.restrictions) }, s') := by
  obtain ⟨ts, hstored, hts⟩ := hs.keyed
  have hseen : s.seen.masterTags = .ok ts.masterTags := by rw [hs.ready.shown, hstored]; rfl
  have hmem : m ∈ ts.masterTags := by
    obtain ⟨rows, hrows, hmem⟩ := hm
    rw [hstored] at hrows
    rw [Except.ok.inj hrows]
    exact hmem
  -- the identifier tells the template
  obtain ⟨t', -, htemplate, hderived⟩ := hts.derived m hmem
  have hours : m.templateId = t.id := by
    rw [← htemplate]
    exact (Template.migrationId_inj (hderived.symm.trans hid)).1
  have hfind : (ts.masterTags.find? fun row =>
      row.migrationId = t.migrationId b.settings.marker master) = some m :=
    (Tables.find?_eq_some_iff hts.migrationIds).2 ⟨hmem, hid⟩
  have hlocks : MasterTag.locksUnder (ts.masterTags.filter fun row =>
      (some t.id).all fun u => row.templateId = u) (t.migrationId b.settings.marker master) =
        m.restrictions := by
    unfold MasterTag.locksUnder
    rw [(Tables.find?_eq_some_iff (hts.migrationIds.sublist (List.filter_sublist.map _))).2
      ⟨List.mem_filter.2 ⟨hmem, decide_eq_true hours⟩, hid⟩]
    rfl
  have hblueprint := templateOf?_of_follows hs.ready htidy hfollows
  have hcourse : (templateOf t.courseId).run s = (.ok t, s) := Action.run_bind_ok hblueprint
  have hid? : Preload.masterId? t b.settings.marker (Item.persisted master ∅) =
      some (t.migrationId b.settings.marker master) := if_pos hallowed
  obtain ⟨s₁, halike, hlooked⟩ : ∃ s₁, s.Alike s₁ ∧
      (Preload.masters t.courseId b.settings.marker [Item.persisted master ∅]).run s =
        (.ok (1, [{ Item.persisted master ∅ with masterRestrictions := some m.restrictions }]),
          s₁) := by
    refine ⟨_, s.alike_noting (Preload.distinct [t.migrationId b.settings.marker master]), ?_⟩
    rw [Preload.masters, Action.run_bind_ok hblueprint]
    refine (Preload.run_fill hseen hts.migrationIds).trans ?_
    rw [List.map_singleton, Preload.filled, List.filterMap_cons_some hid?, hid?]
    simp only [hlocks]
    rfl
  obtain ⟨s₂, -, hfound⟩ := Store.run_masterTag? (t.migrationId b.settings.marker master) s₁
  rw [halike.seen, hseen, Except.map, hfind] at hfound
  have hsummary : (b.summary .user .master).run
      ⟨s₁, { Item.persisted master ∅ with masterRestrictions := some m.restrictions }, [], []⟩ =
        (.ok (.master m.restrictions), _) := rfl
  refine ⟨s₂, ?_⟩
  rw [showContent, Action.run_bind_ok hcourse, Action.run_bind_ok hlooked]
  exact (Action.run_bind_ok (run_examine hsummary)).trans (Action.run_bind_ok hfound)

end Command

/-- After any events on a store that was empty, what is shown of a copy and what is shown of the content
that it was made from go together. The copy is reported restricted if its content is locked altogether or
in a category that is registered for the kind. Then the content is reported restricted too, both by the
same locks; and if the content is not, neither is the copy. -/
theorem sides_agree {b : Rulebook} {s : Store} (hclock : s.supply.ShowsDates)
    (hempty : s.stored = .of .empty) (events : List Event) {id : Uuid} {t : Template}
    {master : ContentKey} {tag : ChildTag} (hallowed : master.kind.allowedInBlueprint = true)
    (hcopy : (runEvents b events s).CopyOf b id t master tag) :
    ∃ m copy content copyReport contentReport s₁ s₂,
      (runEvents b events s).stored.HasMasterTag m ∧
      m.migrationId = t.migrationId b.settings.marker master ∧
      ((Request.inspect tag.content).run b).run (runEvents b events s) = (.ok copyReport, s₁) ∧
      ((Request.showContent t.courseId master).run b).run (runEvents b events s) =
        (.ok contentReport, s₂) ∧
      copyReport.summary = some copy ∧ contentReport.summary = some content ∧
      (copy.restricted = some true ↔ m.restrictions.locksEverything = true ∨
        ∃ g ∈ (b.registry tag.content.kind).categories, m.restrictions.isLocked g = true) ∧
      (copy.restricted = some true → content.restricted = some true ∧
        copy.restrictions = some m.restrictions ∧ content.restrictions = some m.restrictions) ∧
      (content.restricted = some false → copy.restricted = some false) := by
  have hs := orderly_runEvents (b := b) (Store.orderly_of_empty hclock hempty) events
  have htidy := tidy_runEvents (b := b) hclock hempty events
  have hmastered := mastered_runEvents (b := b) hclock hempty events
  obtain ⟨tags, htags, hfind⟩ := Store.childTag?_eq_some hcopy.held
  obtain ⟨m, ⟨rows, hrows, hmem⟩, hid⟩ := hmastered tags htags tag (List.mem_of_find?_eq_some hfind)
  have hid : m.migrationId = t.migrationId b.settings.marker master :=
    Option.some.inj (hid.symm.trans hcopy.migrationId)
  obtain ⟨ts, hstored, hts⟩ := hs.keyed
  have hlocks : MasterTag.locksUnder rows (t.migrationId b.settings.marker master) =
      m.restrictions := by
    rw [hstored] at hrows
    obtain rfl := Except.ok.inj hrows
    rw [MasterTag.locksUnder, (Tables.find?_eq_some_iff hts.migrationIds).2 ⟨hmem, hid⟩]
    rfl
  obtain ⟨s₁, hinspect⟩ := Command.run_inspect hs htidy hcopy hrows
  obtain ⟨s₂, hshow⟩ := Command.run_showContent hs htidy hcopy.follows hallowed ⟨rows, hrows, hmem⟩ hid
  rw [hlocks] at hinspect
  refine ⟨m, _, _, _, _, s₁, s₂, ⟨rows, hrows, hmem⟩, hid, hinspect, hshow, rfl, rfl, ?_, ?_, ?_⟩
  · exact (Option.some_inj.trans .rfl).trans Restrictions.restrict_any_iff
  · intro hrestricted
    have hrestricted := Option.some.inj hrestricted
    have hlocked := Restrictions.anyLocked_of_restrict hrestricted
    exact ⟨congrArg some hlocked, if_pos hrestricted, if_pos hlocked⟩
  · intro hfree
    refine congrArg some (Bool.eq_false_iff.2 fun hrestricted => ?_)
    have hfree : m.restrictions.anyLocked = false := Option.some.inj hfree
    rw [Restrictions.anyLocked_of_restrict hrestricted] at hfree
    cases hfree

namespace Sample

/-- The points of a page are locked, for which no column is registered, and then its content. -/
def lockPointsThenContent : List Event :=
  firstSync ++ [.request (.setLocks ⟨10⟩ page [.only .points] true),
    .request (.setLocks ⟨10⟩ page [.only .content] true)]

/-- The copy and the page are reported restricted by the same locks. -/
theorem sides_agree_page :
    (runEvents rulebook lockPointsThenContent (.inMemory supply)).CopyOf rulebook (supply.ids 1)
      madeTemplate page (copyTag []) ∧
    ∃ copy content copyReport contentReport s₁ s₂,
      ((Request.inspect (copyTag []).content).run rulebook).run
        (runEvents rulebook lockPointsThenContent (.inMemory supply)) = (.ok copyReport, s₁) ∧
      ((Request.showContent ⟨10⟩ page).run rulebook).run
        (runEvents rulebook lockPointsThenContent (.inMemory supply)) = (.ok contentReport, s₂) ∧
      copyReport.summary = some copy ∧ contentReport.summary = some content ∧
      copy.restricted = some true ∧ content.restricted = some true ∧
      copy.restrictions = content.restrictions := by
  have hcopy : (runEvents rulebook lockPointsThenContent (.inMemory supply)).CopyOf rulebook
      (supply.ids 1) madeTemplate page (copyTag []) := copyOf_page rfl (by decide +kernel)
  obtain ⟨m, copy, content, copyReport, contentReport, s₁, s₂, -, -, hinspect, hshow, hhere, hthere,
    -, htrue, -⟩ := sides_agree showsDates_supply rfl lockPointsThenContent rfl hcopy
  have hreported : (((Request.inspect (copyTag []).content).run rulebook).run
      (runEvents rulebook lockPointsThenContent (.inMemory supply))).1.toOption.bind
        (fun report => report.summary.bind Summary.restricted) = some true := by decide +kernel
  rw [hinspect] at hreported
  have hrestricted : copy.restricted = some true := by
    simpa [Except.toOption, hhere] using hreported
  obtain ⟨hcontent, hcopied, hlocks⟩ := htrue hrestricted
  exact ⟨hcopy, copy, content, copyReport, contentReport, s₁, s₂, hinspect, hshow, hhere, hthere,
    hrestricted, hcontent, by rw [hcopied, hlocks]⟩

end Sample

end CourseBlueprint
