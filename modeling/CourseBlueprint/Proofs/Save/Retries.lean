import CourseBlueprint.Proofs.Save.Recording

/-!
# Saves that are tried again

A user's save hands the item over before it records what diverges, and the item then counts as
saved. If the recording fails, trying again finds nothing left to record. So of several attempts up
to the first that is answered as saved, the tag of the item's owner gets what the last of them
wrote, and what the others wrote is recorded only if it was before or the last one wrote it again
(`retries_record_iff`).
-/

namespace CourseBlueprint

/-- An item that is taken up again: its attributes may have been given values, and the store, while
its rows are the same, may have come to take or refuse writes. -/
structure Desk.TakenUp (d d' : Desk) : Prop where
  store : d.store.Alike d'.store
  item : ∃ assignments, d'.item = d.item.setAll assignments

namespace Rulebook

/-! ## Divergence -/

/-- Whether writing the pending changes of an item makes a column diverge: it is governed and does not
hold the state of a deletion, or it stands for the deletion. -/
def Diverges (b : Rulebook) (i : Item) (column : String) : Prop :=
  (column ∈ i.pending.keys ∧ column ∈ (b.schemaOf i).allColumns ∧
      ((∃ change, i.pending.get? i.stateColumn = some change ∧
        change.new.isText Item.deletedState = true) → column ≠ i.stateColumn)) ∨
    column = manuallyDeleted ∧ ∃ change, i.pending.get? i.stateColumn = some change ∧
      change.new.isText Item.deletedState = true

variable {b : Rulebook} {write : Persist} {d d₁ d₂ d' : Desk} {column : String} {tag : ChildTag}

/-- What diverges is what is to be recorded once the changes were written. -/
theorem diverges_iff {i : Item} :
    b.Diverges i column ↔ column ∈ b.columnsToRecord i.changesApplied none := by
  have hdeleted : i.changesApplied.savedDeletion = true ↔
      ∃ change, i.pending.get? i.stateColumn = some change ∧
        change.new.isText Item.deletedState = true := by
    have hsaved : i.changesApplied.saved.get? i.changesApplied.stateColumn =
        i.pending.get? i.stateColumn := rfl
    unfold Item.savedDeletion
    rw [hsaved]
    cases i.pending.get? i.stateColumn with
    | none => simp
    | some change => simp
  rw [mem_columnsToRecord_iff, hdeleted]
  rfl

/-- Whether a change is pending, and so whether a column diverges, does not depend on locks. -/
theorem diverges_withRestrictions {i : Item} (kept : Option Restrictions) :
    b.Diverges { i with childRestrictions := kept } column ↔ b.Diverges i column := Iff.rfl

/-- An item without pending changes diverges in nothing. -/
theorem not_diverges_of_clean {i : Item} (h : i.pending = ∅) : ¬ b.Diverges i column := by
  unfold Diverges
  rw [h]
  rintro (⟨hpending, -⟩ | ⟨-, change, hchange, -⟩)
  · rw [Dict.mem_keys_iff] at hpending
    cases hpending
  · cases hchange

/-! ## One attempt -/

/-- A copy that was saved before is at work, and its owner has the given tag. -/
structure Tracks (b : Rulebook) (d : Desk) (tag : ChildTag) : Prop where
  clock : d.store.supply.ShowsDates
  isCopy : b.isCopy d.item = true
  isNew : d.item.isNew = false
  held : d.store.stored.childTag? d.item.tagOwner = .ok (some tag)

theorem Tracks.of_same (ht : b.Tracks d tag) (hclock : d'.store.supply.ShowsDates)
    (hstored : d'.store.stored = d.store.stored) (hid : d'.item.migrationId = d.item.migrationId)
    (hnew : d'.item.isNew = false) (howner : d'.item.tagOwner = d.item.tagOwner) :
    b.Tracks d' tag where
  clock := hclock
  isCopy := by
    rw [Rulebook.isCopy, hid]
    exact ht.isCopy
  isNew := hnew
  held := by
    rw [hstored, howner]
    exact ht.held

/-- The ends of a user's save of an item that can be written: it was stopped before the write, or
something of what it wrote was recorded, or not. -/
theorem attempt_ends (hwrite : ∀ i, write i = .ok ()) (hnew : d.item.isNew = false)
    (hclock : d.store.supply.ShowsDates) {r : Result SaveOutcome}
    (h : (b.save .user write).run d = (r, d')) :
    (d.Unmoved d' ∧ ∀ report, r ≠ .ok (.saved report)) ∨
      ∃ k d₁ rm, d.Unmoved d₁ ∧ b.Recorded .user d₁.handOver.applied rm d' ∧
        r = rm.map fun merge => .saved ⟨k, .noOverlap, merge⟩ := by
  have hprepared : ∀ {d₁ d₂ : Desk} {rp : Result Reconciliation},
      (b.prepare .user).run d₁ = (rp, d₂) → rp = .ok .noOverlap ∧ d₂ = d₁ := by
    intro d₁ d₂ rp hprepare
    rw [run_prepare_of_idle (.inr (.inl rfl))] at hprepare
    obtain ⟨rfl, rfl⟩ := Prod.mk.inj hprepare
    exact ⟨rfl, rfl⟩
  have hrecorded : ∀ {d₁ : Desk} {rm : Result (Option Merge)}, d.Unmoved d₁ →
      (b.record .user d₁.item.isNew).run d₁.handOver.applied = (rm, d') →
        b.Recorded .user d₁.handOver.applied rm d' := by
    intro d₁ rm hunmoved hrecord
    obtain ⟨kept, hitem⟩ := hunmoved.item
    have hnew₁ : d₁.item.isNew = false := by rw [hitem, hnew]
    have hclock₁ : d₁.handOver.applied.store.supply.ShowsDates := by
      show d₁.store.supply.ShowsDates
      rw [hunmoved.store.supply]
      exact hclock
    rw [hnew₁, record, if_neg Bool.false_ne_true] at hrecord
    exact recorded hclock₁ hrecord
  cases stages h with
  | unchecked hcheck => exact .inl ⟨unmoved_of_check hcheck, fun _ heq => by cases heq⟩
  | rejected hcheck => exact .inl ⟨unmoved_of_check hcheck, fun _ heq => by cases heq⟩
  | unprepared hcheck hprepare => cases (hprepared hprepare).1
  | @unwritten k d₁ reconciliation d₂ e hcheck hprepare hfailed =>
    rw [hwrite] at hfailed
    cases hfailed
  | @unrecorded k d₁ reconciliation d₂ e _ hcheck hprepare _ hrecord =>
    obtain ⟨-, rfl⟩ := hprepared hprepare
    have hunmoved := unmoved_of_check hcheck
    exact .inr ⟨k, d₂, .error e, hunmoved, hrecorded hunmoved hrecord, rfl⟩
  | @saved k d₁ reconciliation d₂ merge _ hcheck hprepare _ hrecord =>
    obtain ⟨hreconciliation, rfl⟩ := hprepared hprepare
    cases hreconciliation
    have hunmoved := unmoved_of_check hcheck
    exact .inr ⟨k, d₂, .ok merge, hunmoved, hrecorded hunmoved hrecord, rfl⟩

/-- An attempt that is not answered as saved has changed no row, and of the item only whether its
changes are saved, and the locks kept with it. -/
theorem Tracks.of_failed (ht : b.Tracks d tag) (hwrite : ∀ i, write i = .ok ())
    {r : Result SaveOutcome} (h : (b.save .user write).run d = (r, d'))
    (hr : ∀ report, r ≠ .ok (.saved report)) :
    b.Tracks d' tag ∧ d'.item.tagOwner = d.item.tagOwner ∧
      (d'.handed ≠ d.handed → d'.item.pending = ∅) := by
  rcases attempt_ends hwrite ht.isNew ht.clock h with ⟨hunmoved, -⟩ |
    ⟨k, d₁, rm, hunmoved, hrecorded, rfl⟩
  · obtain ⟨kept, hitem⟩ := hunmoved.item
    have howner : d'.item.tagOwner = d.item.tagOwner := by rw [hitem]; rfl
    have hclock : d'.store.supply.ShowsDates := by
      rw [hunmoved.store.supply]
      exact ht.clock
    have hnew : d'.item.isNew = false := by
      rw [hitem]
      exact ht.isNew
    exact ⟨ht.of_same hclock hunmoved.store.stored (by rw [hitem]) hnew howner, howner,
      fun hne => absurd hunmoved.handed hne⟩
  · cases hrecorded with
    | @refused e s hskips hlater hstored =>
      obtain ⟨kept, hitem⟩ := hunmoved.item
      have hlater : d₁.store.supply.Later s.supply := hlater
      rw [hunmoved.store.supply] at hlater
      have howner : d₁.item.tagOwner = d.item.tagOwner := by rw [hitem]; rfl
      have hid : d₁.item.migrationId = d.item.migrationId := by rw [hitem]
      have hstored : s.stored = d.store.stored := by
        rw [hstored]
        exact hunmoved.store.stored
      exact ⟨ht.of_same (hlater.showsDates ht.clock) hstored hid rfl howner, howner, fun _ => rfl⟩
    | untracked => exact absurd rfl (hr _)
    | nothing => exact absurd rfl (hr _)
    | missing => exact absurd rfl (hr _)
    | known => exact absurd rfl (hr _)
    | grew => exact absurd rfl (hr _)

/-- An attempt that is answered as saved has recorded what diverged. -/
theorem Tracks.of_saved (ht : b.Tracks d tag) (hwrite : ∀ i, write i = .ok ())
    {report : SaveReport} (h : (b.save .user write).run d = (.ok (.saved report), d')) :
    ∃ tag', d'.store.stored.childTag? d.item.tagOwner = .ok (some tag') ∧
      ∀ x, x ∈ tag'.changes ↔ x ∈ tag.changes ∨ b.Diverges d.item x := by
  rcases attempt_ends hwrite ht.isNew ht.clock h with ⟨-, hr⟩ |
    ⟨k, d₁, rm, hunmoved, hrecorded, hrm⟩
  · exact absurd rfl (hr report)
  · obtain ⟨kept, hitem⟩ := hunmoved.item
    have howner : d₁.handOver.applied.item.tagOwner = d.item.tagOwner := by
      show d₁.item.tagOwner = _
      rw [hitem]
      rfl
    have hheld : d₁.store.stored.childTag? d.item.tagOwner = .ok (some tag) := by
      rw [hunmoved.store.stored]
      exact ht.held
    have hdiverges : ∀ x, x ∈ b.columnsToRecord d₁.handOver.applied.item none ↔
        b.Diverges d.item x := by
      intro x
      show x ∈ b.columnsToRecord d₁.item.changesApplied none ↔ _
      rw [← diverges_iff, hitem, diverges_withRestrictions]
    cases hrecorded with
    | untracked hskips =>
      have hcopy : b.isCopy d₁.item = true := by
        rw [hitem]
        exact ht.isCopy
      have hskips : (!b.isCopy d₁.item) = true := hskips
      rw [hcopy] at hskips
      cases hskips
    | nothing hskips hnone =>
      refine ⟨tag, hheld, fun x => ⟨.inl, ?_⟩⟩
      rintro (hx | hx)
      · exact hx
      · exact absurd ((hdiverges x).2 hx) (NameSet.isEmpty_iff.1 hnone x)
    | refused => cases hrm
    | missing hskips hlater hstored htag =>
      rw [howner] at htag
      cases hheld.symm.trans htag
    | @known s tag₁ hskips hlater htag hknown hstored =>
      rw [howner] at htag
      obtain rfl := Option.some.inj (Except.ok.inj (hheld.symm.trans htag))
      refine ⟨tag, ?_, fun x => ⟨.inl, ?_⟩⟩
      · show s.stored.childTag? _ = _
        rw [hstored]
        exact hheld
      · rintro (hx | hx)
        · exact hx
        · exact hknown x ((hdiverges x).2 hx)
    | @grew s tag₁ hskips hlater htag hstored =>
      rw [howner] at htag
      obtain rfl := Option.some.inj (Except.ok.inj (hheld.symm.trans htag))
      obtain ⟨tag', htag', hchanges⟩ := (Store.childTag?_of_setsChanges hstored).1
      rw [Store.content_of_childTag? hheld] at htag'
      refine ⟨tag', htag', fun x => ?_⟩
      rw [hchanges, NameSet.mem_union, NameSet.mem_diff, hdiverges]
      by_cases hx : x ∈ tag.changes
      · simp [hx]
      · simp [hx]

/-! ## Several attempts -/

theorem Tracks.of_takenUp (ht : b.Tracks d tag) (h : d.TakenUp d') :
    b.Tracks d' tag ∧ d'.item.tagOwner = d.item.tagOwner := by
  obtain ⟨assignments, hitem⟩ := h.item
  obtain ⟨attributes, pending, hframe⟩ := d.item.setAll_frame assignments
  rw [hframe] at hitem
  have howner : d'.item.tagOwner = d.item.tagOwner := by rw [hitem]; rfl
  have hclock : d'.store.supply.ShowsDates := by
    rw [h.store.supply]
    exact ht.clock
  have hnew : d'.item.isNew = false := by
    rw [hitem]
    exact ht.isNew
  exact ⟨ht.of_same hclock h.store.stored (by rw [hitem]) hnew howner, howner⟩

/-- A user saves an item until that is answered as saved. Of the items that were written, those whose
changes could not be recorded are listed before the last one. -/
inductive Retries (b : Rulebook) (write : Persist) : Desk → List Item → Item → Desk → Prop
  | saved {d d' : Desk} {report : SaveReport}
      (h : (b.save .user write).run d = (.ok (.saved report), d')) : Retries b write d [] d.item d'
  | stopped {d d₁ d₂ d' : Desk} {r : Result SaveOutcome} {failed : List Item} {last : Item}
      (h : (b.save .user write).run d = (r, d₁)) (hr : ∀ report, r ≠ .ok (.saved report))
      (hhanded : d₁.handed = d.handed) (hagain : d₁.TakenUp d₂)
      (hrest : Retries b write d₂ failed last d') : Retries b write d failed last d'
  | failed {d d₁ d₂ d' : Desk} {r : Result SaveOutcome} {failed : List Item} {last : Item}
      (h : (b.save .user write).run d = (r, d₁)) (hr : ∀ report, r ≠ .ok (.saved report))
      (hhanded : d₁.handed ≠ d.handed) (hagain : d₁.TakenUp d₂)
      (hrest : Retries b write d₂ failed last d') : Retries b write d (d.item :: failed) last d'

/-- In the end the owner's tag has what it had and what diverged in the last attempt. -/
theorem Retries.held {failed : List Item} {last : Item} (hwrite : ∀ i, write i = .ok ())
    (h : b.Retries write d failed last d') (ht : b.Tracks d tag) :
    ∃ tag', d'.store.stored.childTag? d.item.tagOwner = .ok (some tag') ∧
      ∀ x, x ∈ tag'.changes ↔ x ∈ tag.changes ∨ b.Diverges last x := by
  induction h with
  | saved h => exact ht.of_saved hwrite h
  | stopped h hr hhanded hagain hrest ih =>
    obtain ⟨ht₁, howner₁, -⟩ := ht.of_failed hwrite h hr
    obtain ⟨ht₂, howner₂⟩ := ht₁.of_takenUp hagain
    rw [← howner₁, ← howner₂]
    exact ih ht₂
  | failed h hr hhanded hagain hrest ih =>
    obtain ⟨ht₁, howner₁, -⟩ := ht.of_failed hwrite h hr
    obtain ⟨ht₂, howner₂⟩ := ht₁.of_takenUp hagain
    rw [← howner₁, ← howner₂]
    exact ih ht₂

/-- After a failed recording, saving the item as it is records nothing: what it wrote before is
lost. -/
theorem record_nothing_of_retry {s : Store} {r : Result SaveOutcome} {report : SaveReport}
    (hwrite : ∀ i, write i = .ok ()) (ht : b.Tracks d tag)
    (h : (b.save .user write).run d = (r, d₁)) (hr : ∀ report, r ≠ .ok (.saved report))
    (hhanded : d₁.handed ≠ d.handed) (hstore : d₁.store.Alike s)
    (hagain : (b.save .user write).run { d₁ with store := s } = (.ok (.saved report), d₂)) :
    ∃ tag', d₂.store.stored.childTag? d.item.tagOwner = .ok (some tag') ∧
      ∀ x, x ∈ tag'.changes ↔ x ∈ tag.changes := by
  obtain ⟨ht₁, howner, hclean⟩ := ht.of_failed hwrite h hr
  have htaken : d₁.TakenUp { d₁ with store := s } := ⟨hstore, [], rfl⟩
  obtain ⟨ht₂, -⟩ := ht₁.of_takenUp htaken
  obtain ⟨tag', htag', hchanges⟩ := ht₂.of_saved hwrite hagain
  refine ⟨tag', by rw [← howner]; exact htag', fun x => ?_⟩
  rw [hchanges]
  exact or_iff_left (not_diverges_of_clean (hclean hhanded))

/-- All that diverged in any of the attempts is recorded in the end exactly if what diverged in a
failed one was recorded before all of them, or diverged in the last one again. -/
theorem retries_record_iff {failed : List Item} {last : Item} (hwrite : ∀ i, write i = .ok ())
    (ht : b.Tracks d tag) (h : b.Retries write d failed last d') :
    ∃ tag', d'.store.stored.childTag? d.item.tagOwner = .ok (some tag') ∧
      ((∀ i ∈ failed ++ [last], ∀ x, b.Diverges i x → x ∈ tag'.changes) ↔
        ∀ i ∈ failed, ∀ x, b.Diverges i x → x ∈ tag.changes ∨ b.Diverges last x) := by
  obtain ⟨tag', htag', hchanges⟩ := h.held hwrite ht
  refine ⟨tag', htag', ?_⟩
  constructor
  · intro hall i hi x hx
    exact (hchanges x).1 (hall i (List.mem_append_left [last] hi) x hx)
  · intro hfailed i hi x hx
    rw [hchanges]
    rcases List.mem_append.1 hi with hi | hi
    · exact hfailed i hi x hx
    · rw [List.mem_singleton.1 hi] at hx
      exact .inr hx

end Rulebook

namespace Sample

/-- The desk, where the store takes writes or refuses them. -/
def refusing (d : Desk) (on : Bool) : Desk :=
  match d.store.place with
  | .memory m => { d with store := { d.store with place := .memory { m with writesFail := on } } }
  | .directory _ => d

/-- The desk after a user's save of the page that could not be recorded. -/
def unrecorded : Desk := ((rulebook.save .user .noop).run (refusing (desk []) true)).2

/-- The same desk, where writes are taken again and the page may have been given other values. -/
def takenUp (assignments : List (String × Json)) : Desk :=
  { refusing unrecorded false with item := unrecorded.item.setAll assignments }

theorem run_save_refusing :
    (rulebook.save .user .noop).run (refusing (desk []) true) = (.error .writeRefused, unrecorded) :=
  rfl

theorem tracks_refusing : rulebook.Tracks (refusing (desk []) true) (tag page []) :=
  ⟨showsDates_supply, rfl, rfl, rfl⟩

theorem takenUp_unrecorded (assignments : List (String × Json)) :
    unrecorded.TakenUp (takenUp assignments) := ⟨⟨rfl, rfl, rfl⟩, assignments, rfl⟩

/-- A page whose new body could not be recorded, and that is saved at the next attempt. -/
theorem retries_takenUp {assignments : List (String × Json)} {report : SaveReport} {d' : Desk}
    (hagain : (rulebook.save .user .noop).run (takenUp assignments) = (.ok (.saved report), d')) :
    rulebook.Retries .noop (refusing (desk []) true) [edited] (takenUp assignments).item d' := by
  have hhanded : unrecorded.handed ≠ (refusing (desk []) true).handed := List.cons_ne_nil _ _
  exact .failed run_save_refusing nofun hhanded (takenUp_unrecorded assignments) (.saved hagain)

/-- If the page has got another body in between, the body is recorded in the end. -/
theorem retries_record_body :
    ∃ tag', ((rulebook.save .user .noop).run
        (takenUp [("body", .string "newer")])).2.store.stored.childTag? page = .ok (some tag') ∧
      ∀ i ∈ [edited] ++ [(takenUp [("body", .string "newer")]).item], ∀ x,
        rulebook.Diverges i x → x ∈ tag'.changes := by
  have hagain : (rulebook.save .user .noop).run (takenUp [("body", .string "newer")]) =
      (.ok (.saved ⟨.accepted, .noOverlap, some (.grew (.ofList ["body"]))⟩), _) := rfl
  obtain ⟨tag', htag', hiff⟩ :=
    Rulebook.retries_record_iff (fun _ => rfl) tracks_refusing (retries_takenUp hagain)
  refine ⟨tag', htag', hiff.2 fun i hi x hx => .inr ?_⟩
  rw [List.mem_singleton.1 hi, Rulebook.diverges_iff] at hx
  have hbody : x = "body" := by
    have hx : x ∈ NameSet.ofList ["body"] := hx
    simpa using hx
  rw [hbody, Rulebook.diverges_iff]
  decide

/-- If it is saved again as it is, that is answered as saved, and no change of the page is
recorded. -/
theorem not_retries_record :
    ¬ ∀ (b : Rulebook) (write : Persist) (d d' : Desk) (tag : ChildTag) (failed : List Item)
      (last : Item), (∀ i, write i = .ok ()) → b.Tracks d tag → b.Retries write d failed last d' →
      ∃ tag', d'.store.stored.childTag? d.item.tagOwner = .ok (some tag') ∧
        ∀ i ∈ failed ++ [last], ∀ x, b.Diverges i x → x ∈ tag'.changes := by
  intro h
  have hagain : (rulebook.save .user .noop).run (takenUp []) =
      (.ok (.saved ⟨.accepted, .noOverlap, none⟩), _) := rfl
  obtain ⟨tag', htag', hall⟩ := h rulebook .noop (refusing (desk []) true) _ (tag page []) [edited]
    _ (fun _ => rfl) tracks_refusing (retries_takenUp hagain)
  have hnone : tag page [] = tag' := Option.some.inj (Except.ok.inj htag')
  have hbody : "body" ∈ tag'.changes := by
    refine hall edited List.mem_cons_self "body" (Rulebook.diverges_iff.2 ?_)
    decide
  rw [← hnone] at hbody
  exact absurd hbody (by decide)

end Sample

end CourseBlueprint
