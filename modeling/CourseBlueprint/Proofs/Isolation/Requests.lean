import CourseBlueprint.Proofs.Isolation.Commands
import CourseBlueprint.Proofs.Isolation.Parts

/-!
# Blueprints do not meddle with one another

After any events on a store that was empty, a request adds or changes the rows that it names and no
others, and what is asked about a blueprint, its subscriptions or its copies is answered as if nothing
had been requested about others in between (`runEvents_isolated`).
-/

namespace CourseBlueprint

/-! ## Stores whose rows go back to templates -/

namespace Store

variable {b : Rulebook} {s t : Store} {ts : Tables} {x : Uuid}

/-- A store in order with tables that go back to templates. If there are rows, writes either work or are
refused. -/
structure Rooted (b : Rulebook) (s : Store) (ts : Tables) : Prop where
  orderly : s.Orderly b
  stored : s.stored = .of ts
  tables : ts.Rooted b s.supply.HasDrawn
  writes : s.Works ∨ s.Refuses ∨ ts = .empty

theorem Rooted.keyed (h : s.Rooted b ts) : ts.Keyed b := by
  obtain ⟨ts', hstored, hkeyed⟩ := h.orderly.keyed
  rw [Stored.of_inj (h.stored.symm.trans hstored)]
  exact hkeyed

theorem rooted_of_empty (hclock : s.supply.ShowsDates) (hempty : s.stored = .of .empty) :
    s.Rooted b .empty :=
  ⟨orderly_of_empty hclock hempty, hempty, Tables.rooted_empty b _, .inr (.inr rfl)⟩

theorem moves_run (hready : s.Ready) (r : Request) :
    s.Moves b (fun _ => True) ((r.run b).run s).2 :=
  (Event.request r).moves_after hready fun _ _ => trivial

/-- A request leaves tables that go back to templates, if no identifier is drawn twice, and the part of
each template that it is not about. -/
theorem Rooted.run (h : s.Rooted b ts) (r : Request) (hfresh : ((r.run b).run s).2.supply.Fresh) :
    ∃ ts', ((r.run b).run s).2.Rooted b ts' ∧ ∀ x, s.supply.HasDrawn x →
      r.template? s.stored ≠ some x → ts'.part x = ts.part x := by
  have hmoves : s.Moves b (fun _ => True) ((r.run b).run s).2 := moves_run h.orderly.ready r
  obtain ⟨ts', hstored, htouches⟩ :=
    Request.touches_run h.orderly h.stored r (Prod.eta ((r.run b).run s)).symm
  have hnew : ∀ id, s.supply.Drew ((r.run b).run s).2.supply id → ¬ s.supply.HasDrawn id :=
    fun id hid => hfresh.not_hasDrawn hmoves.supply hid
  have hrooted := (h.tables.touched hnew htouches).mono fun id hid =>
    Supply.hasDrawn_of_later hmoves.supply hid
  have hwrites := r.writesAs_run (b := b) h.orderly.ready.clock
  refine ⟨ts', ⟨hmoves.orderly h.orderly, hstored, hrooted, ?_⟩, fun x hx hother => ?_⟩
  · rcases h.writes with hworks | hrefuses | rfl
    · exact .inl (hwrites.works hworks)
    · exact .inr (.inl (hwrites.refuses hrefuses))
    · rcases hwrites.kept with hkept | hworks
      · exact .inr (.inr (Stored.of_inj (hstored.symm.trans (hkept.trans h.stored))))
      · exact .inl hworks
  · rw [h.stored] at hother
    exact h.tables.part_eq hother h.keyed hx hnew htouches

theorem Rooted.refusingWrites (h : s.Rooted b ts) (on : Bool) : (s.refusingWrites on).Rooted b ts := by
  have halike := s.alike_refusingWrites on
  have hmoves : s.Moves b (fun _ => True) (s.refusingWrites on) := halike.move.moves
  refine ⟨hmoves.orderly h.orderly, halike.stored.trans h.stored, halike.supply ▸ h.tables, ?_⟩
  obtain ⟨m | d, p⟩ := s
  · cases on with
    | true => exact .inr (.inl rfl)
    | false => exact .inl rfl
  · exact h.writes

/-- After any events the tables go back to templates, if no identifier was drawn twice. The induction is
on the last event, since what is asked of the identifiers in the end holds of those drawn before it. -/
theorem rooted_runEvents (h : s.Rooted b ts) (events : List Event)
    (hfresh : (runEvents b events s).supply.Fresh) : ∃ ts', (runEvents b events s).Rooted b ts' := by
  induction events using List.reverseRecOn with
  | nil => exact ⟨ts, h⟩
  | append_singleton events e ih =>
    rw [runEvents_concat] at hfresh ⊢
    have hready : (runEvents b events s).Ready := (orderly_runEvents h.orderly events).ready
    have hmoves : (runEvents b events s).Moves b (fun _ => True) (e.after b (runEvents b events s)) :=
      e.moves_after hready fun _ _ => trivial
    obtain ⟨ts₁, h₁⟩ := ih (.of_later hmoves.supply hfresh)
    cases e with
    | request r =>
      obtain ⟨ts', h', -⟩ := h₁.run r hfresh
      exact ⟨ts', h'⟩
    | refuseWrites on => exact ⟨ts₁, h₁.refusingWrites on⟩

/-! ## Requests about others -/

theorem Elsewhere.moves (h : s.Elsewhere b x t) (hready : s.Ready) :
    s.Moves b (fun _ => True) t := by
  induction h with
  | refl => exact .refl
  | tail before r _ ih => exact ih.trans (moves_run (ih.ready hready) r)

theorem Elsewhere.writesAs (h : s.Elsewhere b x t) (hready : s.Ready) : s.WritesAs t := by
  induction h with
  | refl => exact .refl s
  | tail before r _ ih => exact ih.trans (r.writesAs_run ((before.moves hready).ready hready).clock)

/-- Requests about others leave the part of a template. -/
theorem Rooted.elsewhere (h : s.Rooted b ts) (hx : s.supply.HasDrawn x) (ht : s.Elsewhere b x t)
    (hfresh : t.supply.Fresh) : ∃ ts', t.Rooted b ts' ∧ ts'.part x = ts.part x := by
  induction ht with
  | refl => exact ⟨ts, h, rfl⟩
  | @tail t before r hother ih =>
    have hmoves : s.Moves b (fun _ => True) t := before.moves h.orderly.ready
    have hlater := (moves_run (b := b) (hmoves.ready h.orderly.ready) r).supply
    obtain ⟨ts₁, h₁, hpart₁⟩ := ih (hfresh.of_later hlater)
    obtain ⟨ts', h', hpart⟩ := h₁.run r hfresh
    have hdrawn : t.supply.HasDrawn x := Supply.hasDrawn_of_later hmoves.supply (.inl hx)
    exact ⟨ts', h', (hpart x hdrawn hother).trans hpart₁⟩

end Store

/-! ## The blueprint of a template -/

namespace Tables

variable {b : Rulebook} {drawn new : Uuid → Prop} {ts : Tables} {x : Uuid}

/-- The blueprint of the rows of a template. Content is its own if it is that of one of the copies, or
if its identifier is new. -/
def blueprint (rows : Tables) (x : Uuid) (new : Uuid → Prop) : Blueprint where
  id := x
  templates := rows.templates
  subscriptions := rows.subscriptions
  own content := (∃ c ∈ rows.childTags, c.content = content) ∨ new content.id

/-- The portion of the rows of a template. -/
def portion (rows : Tables) (supply? : Option Supply) (refuses : Bool) : Portion where
  masterTags := rows.masterTags
  childTags := rows.childTags
  supply? := supply?
  refuses := refuses

/-- No row of another template can be taken for one of the part of a template. -/
theorem Rooted.holds (h : ts.Rooted b drawn) (hkeyed : ts.Keyed b) (x : Uuid)
    (hnew : ∀ id, new id → ¬ drawn id) (supply? : Option Supply) (refuses : Bool) :
    ((ts.part x).blueprint x new).Holds b ts ((ts.part x).portion supply? refuses) where
  templates := rfl
  subscriptions := rfl
  courses := h.courses
  subscriptionIds := h.subscriptionIds
  migrationIds := hkeyed.migrationIds
  derived := by
    rintro m hm ⟨t, ht, content, hid⟩
    obtain ⟨t', -, htemplate, hderived⟩ := hkeyed.derived m hm
    exact htemplate.symm.trans ((Template.migrationId_inj (hderived.symm.trans hid)).1.trans ht)
  copies := by
    intro c hc hours
    have hfollows : ((ts.part x).blueprint x new).follows c = true := by
      -- content is not shared by copies, and new content is that of none yet
      rcases hours with (⟨c', hc', hcontent⟩ | hid) | hfollows
      · obtain ⟨hc', hfollows⟩ := List.mem_filter.1 hc'
        rw [eq_of_nodup_map hkeyed.contents hc hc' hcontent.symm]
        exact hfollows
      · exact absurd (h.contentsDrawn c hc) (hnew _ hid)
      · exact hfollows
    refine ⟨hfollows, .inl ⟨c, List.mem_filter.2 ⟨hc, hfollows⟩, rfl⟩, fun id hid => ?_⟩
    obtain ⟨sub, hsub, hid', t, -, htemplate, content, hderived⟩ := h.copies c hc
    obtain ⟨sub', hsub', hours⟩ := List.any_eq_true.1 hfollows
    obtain ⟨hmem, hx⟩ := List.mem_filter.1 hsub'
    have hsame : sub = sub' :=
      eq_of_nodup_map h.subscriptionIds hsub hmem (hid'.trans (of_decide_eq_true hours).symm)
    refine ⟨t, ?_, content, Option.some.inj (hid.symm.trans hderived)⟩
    exact htemplate.trans (hsame ▸ of_decide_eq_true hx)
  masterTags := rfl
  childTags := rfl

/-- A request about a template names its part. -/
theorem names_of_template? {q : Request} (hq : q.template? (.of ts) = some x)
    (hasks : q.looks = true ∨ q.worksOnCopies = true) : ((ts.part x).blueprint x new).Names q := by
  have hfollowed : ∀ id, (Stored.of ts).followedId? id = some x →
      ∃ sub ∈ (ts.part x).subscriptions, sub.id = id := by
    intro id hid
    obtain ⟨sub, hsub, hfollows⟩ := Option.map_eq_some_iff.1 hid
    refine ⟨sub, List.mem_filter.2 ⟨List.mem_of_find?_eq_some hsub, decide_eq_true hfollows⟩, ?_⟩
    simpa using List.find?_some hsub
  have hcopied : ∀ content, (Stored.of ts).copiedId? content = some x →
      ((ts.part x).blueprint x new).own content := by
    intro content hcontent
    obtain ⟨c, hc, hid⟩ := Option.bind_eq_some_iff.1 hcontent
    obtain ⟨sub, hsub, hours⟩ := hfollowed _ hid
    refine .inl ⟨c, List.mem_filter.2 ⟨List.mem_of_find?_eq_some hc, ?_⟩, content_of_childTagIn hc⟩
    exact List.any_eq_true.2 ⟨sub, hsub, decide_eq_true hours⟩
  cases q with
  | showContent course content =>
    obtain ⟨t, ht, hid⟩ := Option.map_eq_some_iff.1 hq
    refine ⟨t, List.mem_filter.2 ⟨List.mem_of_find?_eq_some ht, decide_eq_true hid⟩, ?_⟩
    simpa using List.find?_some ht
  | inspect | preview | edit => exact hcopied _ hq
  | status | sync => exact hfollowed _ hq
  | _ => rcases hasks with hlooks | hworks <;> contradiction

end Tables

/-! ## Answers -/

/-- A supply of which some more identifiers were used. -/
def Supply.afterIds (p : Supply) (n : Nat) : Supply := { p with idsUsed := p.idsUsed + n }

theorem Supply.later_afterIds (p : Supply) (n : Nat) : p.Later (p.afterIds n) :=
  ⟨rfl, rfl, Nat.le_add_right _ _⟩

namespace Store

variable {b : Rulebook} {new : Uuid → Prop} {s t : Store} {ts : Tables} {x : Uuid}

/-- What a store shows of a template is the part of that template. -/
theorem Rooted.shown (h : s.Rooted b ts) (x : Uuid) (hnew : ∀ id, new id → ¬ s.supply.HasDrawn id)
    {refuses : Bool} (hwrites : if refuses then s.Refuses else s.Works) (supply? : Option Supply)
    (hsupply : ∀ p ∈ supply?, s.supply = p) :
    ((ts.part x).blueprint x new).Shown b s ((ts.part x).portion supply? refuses) where
  writes := hwrites
  seen := h.orderly.ready.shown
  clock := h.orderly.ready.clock
  supply := hsupply
  held := ⟨ts, h.stored, h.tables.holds h.keyed x hnew supply? refuses⟩

/-- Requests about others do not change what is answered about a template. -/
theorem Rooted.answer_eq (h : s.Rooted b ts) (ht : s.Elsewhere b x t) {q : Request}
    (hq : q.template? s.stored = some x) (hfresh : (t.supply.afterIds q.drawsForCopy).Fresh) :
    (q.looks = true → ((q.run b).run t).1 = ((q.run b).run s).1) ∧
      (q.worksOnCopies = true →
        ((q.run b).run t).1 = ((q.run b).run { s with supply := t.supply }).1) := by
  have hlater : s.supply.Later t.supply := (ht.moves h.orderly.ready).supply
  have hnew : ∀ id, t.supply.Drew (t.supply.afterIds q.drawsForCopy) id → ¬ t.supply.HasDrawn id :=
    fun id hid => hfresh.not_hasDrawn (t.supply.later_afterIds _) hid
  rw [h.stored] at hq
  obtain ⟨template, htemplate, hid⟩ := h.tables.exists_template hq
  have hx : s.supply.HasDrawn x := hid ▸ h.tables.templatesDrawn template htemplate
  obtain ⟨ts', h', hpart⟩ := h.elsewhere hx ht (hfresh.of_later (t.supply.later_afterIds _))
  -- requests about others do not change whether writes are refused, and there are rows
  obtain ⟨refuses, hwrites, hwrites'⟩ : ∃ refuses : Bool,
      (if refuses then s.Refuses else s.Works) ∧ if refuses then t.Refuses else t.Works := by
    have hwritesAs := ht.writesAs h.orderly.ready
    rcases h.writes with hworks | hrefuses | rfl
    · exact ⟨false, hworks, hwritesAs.works hworks⟩
    · exact ⟨true, hrefuses, hwritesAs.refuses hrefuses⟩
    · exact absurd htemplate List.not_mem_nil
  have hshown := h.shown x (fun id hid hdrawn =>
    hnew id hid (Supply.hasDrawn_of_later hlater (.inl hdrawn))) hwrites none nofun
  have hnames : q.looks = true ∨ q.worksOnCopies = true →
      ((ts.part x).blueprint x (t.supply.Drew (t.supply.afterIds q.drawsForCopy))).Names q :=
    Tables.names_of_template? hq
  constructor
  · -- a look draws nothing, so the supplies of the two stores may differ
    intro hlooks
    have hshown' := h'.shown x hnew hwrites' none nofun
    rw [hpart] at hshown'
    have hdepends := Blueprint.dependsOn_looking (b := b) (P := fun _ => True) hlooks
      (hnames (.inl hlooks))
    exact hdepends.answer_eq trivial hshown' hshown
  · intro hworks
    have hknown : ∀ p ∈ some t.supply, t.supply = p := fun p hp => Option.some.inj hp
    have hshown' := h'.shown x hnew hwrites' (some t.supply) hknown
    rw [hpart] at hshown'
    have hplace : ({ s with supply := t.supply } : Store).place = s.place := rfl
    have hresupplied := hshown.of_place_eq hplace h'.orderly.ready.clock hknown
    have hoffers : ((ts.part x).blueprint x (t.supply.Drew (t.supply.afterIds q.drawsForCopy))).Offers
        q.drawsForCopy ((ts.part x).portion (some t.supply) refuses) := by
      refine ⟨t.supply, rfl, fun i hi kind => .inr ⟨t.supply.idsUsed + i, ?_, ?_, rfl⟩⟩
      · exact Nat.le_add_right _ _
      · exact Nat.add_lt_add_left hi _
    have hdepends := Blueprint.dependsOn_working (b := b) hworks (hnames (.inr hworks))
    exact hdepends.answer_eq hoffers hshown' hresupplied

end Store

/-- After any events on a store that was empty, a request adds or changes one row of each table at most,
and that within its reach. What a blueprint, a subscription or a copy shows is not changed by requests
that are about other templates, and an edit or a sync is answered as if they had not been made, but for
the identifiers and times that they drew. It is asked only that the identifiers that were drawn, and the
next ones up to that of a new copy, are all different. -/
theorem runEvents_isolated (b : Rulebook) (events : List Event) {s₀ s : Store}
    (hclock : s₀.supply.ShowsDates) (hempty : s₀.stored = .of .empty)
    (hs : runEvents b events s₀ = s) :
    (∃ ts, s.stored = .of ts ∧ ∀ r : Request, ∃ ts', ((r.run b).run s).2.stored = .of ts' ∧
      (r.reach b (s.supply.Drew ((r.run b).run s).2.supply) ts).Touches ts ts') ∧
    ∀ x t, s.Elsewhere b x t → ∀ q : Request, q.template? s.stored = some x →
      (t.supply.afterIds q.drawsForCopy).Fresh →
        (q.looks = true → ((q.run b).run t).1 = ((q.run b).run s).1) ∧
        (q.worksOnCopies = true →
          ((q.run b).run t).1 = ((q.run b).run { s with supply := t.supply }).1) := by
  have hrooted₀ : s₀.Rooted b .empty := Store.rooted_of_empty hclock hempty
  have horderly : s.Orderly b := hs ▸ orderly_runEvents hrooted₀.orderly events
  constructor
  · obtain ⟨ts, hstored, -⟩ := horderly.keyed
    exact ⟨ts, hstored, fun r => r.touches_run horderly hstored (Prod.eta ((r.run b).run s)).symm⟩
  · intro x t ht q hq hfresh
    have hlater : s.supply.Later (t.supply.afterIds q.drawsForCopy) :=
      (ht.moves horderly.ready).supply.trans (t.supply.later_afterIds _)
    subst hs
    obtain ⟨ts, h⟩ := Store.rooted_runEvents hrooted₀ events (hfresh.of_later hlater)
    exact h.answer_eq ht hq hfresh

namespace Sample

/-- Two courses are blueprints, each followed by another course, and a page of each is synced. -/
def twoBlueprints : List Event :=
  [.request (.makeBlueprint ⟨10⟩), .request (.subscribe ⟨10⟩ ⟨4⟩), .request (.makeBlueprint ⟨20⟩),
    .request (.subscribe ⟨20⟩ ⟨5⟩), .request (.sync (supply.ids 1) page []),
    .request (.sync (supply.ids 3) page [])]

def bothSynced : Store := runEvents rulebook twoBlueprints (.inMemory supply)

/-- The copy of the second blueprint is edited and its content locked. -/
def secondEdited : Store :=
  (((Request.edit ⟨.wikiPage, supply.ids 8⟩ ["body=new"] false false).run rulebook).run bothSynced).2

def secondLocked : Store :=
  (((Request.setLocks ⟨20⟩ page [.everything] true).run rulebook).run secondEdited).2

theorem elsewhere_secondLocked : bothSynced.Elsewhere rulebook (supply.ids 0) secondLocked :=
  .tail (.tail .refl _ (by decide +kernel)) _ (by decide +kernel)

theorem fresh_secondLocked (n : Nat) (hn : n ≤ 2) : (secondLocked.supply.afterIds n).Fresh := by
  have hready : (Store.inMemory supply).Ready := Store.ready_of_empty showsDates_supply rfl
  have hmoves : (Store.inMemory supply).Moves rulebook (fun _ => True) bothSynced :=
    moves_runEvents hready twoBlueprints fun _ _ _ _ => trivial
  have hlater := (hmoves.trans (elsewhere_secondLocked.moves (hmoves.ready hready))).supply
  refine fresh_of_later (hlater.trans (secondLocked.supply.later_afterIds n)) ?_
  have hused : secondLocked.supply.idsUsed ≤ 14 := by decide +kernel
  exact Nat.add_le_add hused hn

/-- The change of the second copy is recorded. The preview of the first copy is what it was, and so is a
sync that changes its body. -/
theorem isolated_secondLocked :
    secondLocked.stored.childTags.toOption.map (List.map fun c => c.changes.toList) =
      some [[], ["body"]] ∧
    (((Request.preview ⟨.wikiPage, supply.ids 5⟩).run rulebook).run secondLocked).1 =
      (((Request.preview ⟨.wikiPage, supply.ids 5⟩).run rulebook).run bothSynced).1 ∧
    (((Request.sync (supply.ids 1) page ["body=other"]).run rulebook).run secondLocked).1 =
      (((Request.sync (supply.ids 1) page ["body=other"]).run rulebook).run
        { bothSynced with supply := secondLocked.supply }).1 := by
  have happart := (runEvents_isolated rulebook twoBlueprints showsDates_supply rfl
    (rfl : _ = bothSynced)).2 (supply.ids 0) secondLocked elsewhere_secondLocked
  refine ⟨by decide +kernel, ?_, ?_⟩
  · exact (happart (.preview ⟨.wikiPage, supply.ids 5⟩) (by decide +kernel)
      (fresh_secondLocked 0 (by decide))).1 rfl
  · exact (happart (.sync (supply.ids 1) page ["body=other"]) (by decide +kernel)
      (fresh_secondLocked 2 (by decide))).2 rfl

end Sample

end CourseBlueprint
