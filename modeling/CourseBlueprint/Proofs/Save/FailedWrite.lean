import CourseBlueprint.Proofs.Save.Stages

/-!
# Saves that could not be written

When the item cannot be written, a save answers the failure of the write and records nothing. What
was done before the write is not taken back. Outside of imports that is nothing; in the import of a
copy it is what the reconciliation did to the copy's own tag and to its pending changes, and no
other child tag has changed (`save_of_failing_write`).
-/

namespace CourseBlueprint

/-- The rows, the attributes, their pending changes and the skipped items are as they were. -/
structure Desk.Untouched (d d' : Desk) : Prop where
  stored : d'.store.stored = d.store.stored
  attributes : d'.item.attributes = d.item.attributes
  pending : d'.item.pending = d.item.pending
  skipped : d'.skipped = d.skipped

/-- What a save leaves behind when the item could not be written, for the failure `e` of the
write. -/
structure FailedWrite (b : Rulebook) (c : Context) (e : Item → Failure) (d : Desk)
    (r : Result SaveOutcome) (d' : Desk) : Prop where
  /-- The save was refused or stopped before the write, or it answers the failure of the write. -/
  answer : d'.handed = d.handed ∧ ((∃ rejection, r = .ok (.rejected rejection)) ∨ ∃ f, r = .error f) ∨
    d'.handed = d.handed ++ [d'.item.attributes] ∧ r = .error (e d'.item)
  saved : d'.item.saved = d.item.saved
  isNew : d'.item.isNew = d.item.isNew
  others : ∀ content, content ≠ d.item.key →
    d'.store.stored.childTag? content = d.store.stored.childTag? content
  /-- Only the import of a copy that is there leaves anything behind. -/
  untouched : d.item.isNew = true ∨ c.migration = none ∨ b.isCopy d.item = false → d.Untouched d'
  /-- A save that was stopped before the write does not, nor one of a copy without a tag. -/
  stopped : d'.handed = d.handed → d.UntouchedButTag d'
  untagged : d.store.stored.childTag? d.item.key = .ok none → d.UntouchedButTag d'
  /-- Any other leaves what its reconciliation was to do. -/
  carriedOut : ∀ m tag, d'.handed ≠ d.handed → d.item.isNew = false → c.migration = some m →
    b.isCopy d.item = true → d.store.stored.childTag? d.item.key = .ok (some tag) →
    d.CarriedOut tag (b.planIn m tag d.item) d'

namespace Desk

variable {d d' : Desk}

theorem Unmoved.untouched (h : d.Unmoved d') : d.Untouched d' := by
  obtain ⟨kept, hitem⟩ := h.item
  exact ⟨h.store.stored, by rw [hitem], by rw [hitem], h.skipped⟩

theorem Untouched.butTag (h : d.Untouched d') : d.UntouchedButTag d' :=
  ⟨.inl (by rw [h.stored]), h.attributes, h.pending, h.skipped⟩

theorem handed_ne_handOver : d.handOver.handed ≠ d.handed := by
  intro h
  have := congrArg List.length h
  simp [handOver] at this

end Desk

namespace FailedWrite

variable {b : Rulebook} {c : Context} {e : Item → Failure} {d d' : Desk} {r : Result SaveOutcome}

/-- A save that was stopped before anything was changed. -/
theorem of_unmoved (h : d.Unmoved d')
    (hr : (∃ rejection, r = .ok (.rejected rejection)) ∨ ∃ f, r = .error f) :
    FailedWrite b c e d r d' := by
  obtain ⟨kept, hitem⟩ := h.item
  exact {
    answer := .inl ⟨h.handed, hr⟩
    saved := by rw [hitem]
    isNew := by rw [hitem]
    others := fun content _ => by rw [h.store.stored]
    untouched := fun _ => h.untouched
    stopped := fun _ => h.untouched.butTag
    untagged := fun _ => h.untouched.butTag
    carriedOut := fun _ _ hhanded => absurd h.handed hhanded }

/-- A save that tried the write before anything was changed, and had nothing to change. -/
theorem of_handOver (h : d.Unmoved d')
    (hidle : d.item.isNew = true ∨ c.migration = none ∨ b.isCopy d.item = false) :
    FailedWrite b c e d (.error (e d'.item)) d'.handOver := by
  obtain ⟨kept, hitem⟩ := h.item
  have hsaved : d'.item.saved = d.item.saved := by rw [hitem]
  have hnew : d'.item.isNew = d.item.isNew := by rw [hitem]
  have huntouched : d.Untouched d'.handOver := ⟨h.store.stored, h.untouched.attributes,
    h.untouched.pending, h.skipped⟩
  exact {
    answer := .inr ⟨by rw [← h.handed]; rfl, rfl⟩
    saved := hsaved
    isNew := hnew
    others := fun content _ => congrArg (fun st => st.childTag? content) h.store.stored
    untouched := fun _ => huntouched
    stopped := fun _ => huntouched.butTag
    untagged := fun _ => huntouched.butTag
    carriedOut := by
      intro m tag _ hnew hc hcopy
      rcases hidle with h | h | h
      · rw [h] at hnew; cases hnew
      · rw [h] at hc; cases hc
      · rw [h] at hcopy; cases hcopy }

/-- A save in an import that was stopped by its reconciliation. -/
theorem of_reconciled_error {m : Migration} {f : Failure} (h : b.Reconciled m d (.error f) d')
    (himport : ¬ (d.item.isNew = true ∨ c.migration = none ∨ b.isCopy d.item = false)) :
    FailedWrite b c e d (.error f) d' := by
  obtain ⟨hhanded, attributes, pending, kept, hitem⟩ := h.frame
  exact {
    answer := .inl ⟨hhanded, .inr ⟨f, rfl⟩⟩
    saved := by rw [hitem]
    isNew := by rw [hitem]
    others := fun content => h.others
    untouched := fun hidle => absurd hidle himport
    stopped := fun _ => h.untouched_of_error
    untagged := fun _ => h.untouched_of_error
    carriedOut := fun _ _ hne => absurd hhanded hne }

/-- A save in an import that tried the write after its reconciliation. -/
theorem of_reconciled {m : Migration} {reconciliation : Reconciliation}
    (h : b.Reconciled m d (.ok reconciliation) d') (hc : c.migration = some m)
    (himport : ¬ (d.item.isNew = true ∨ c.migration = none ∨ b.isCopy d.item = false)) :
    FailedWrite b c e d (.error (e d'.item)) d'.handOver := by
  obtain ⟨hhanded, attributes, pending, kept, hitem⟩ := h.frame
  have hsaved : d'.item.saved = d.item.saved := by rw [hitem]
  have hnew : d'.item.isNew = d.item.isNew := by rw [hitem]
  have hne : d'.handOver.handed ≠ d.handed := by
    rw [← hhanded]
    exact Desk.handed_ne_handOver
  exact {
    answer := .inr ⟨by rw [← hhanded]; rfl, rfl⟩
    saved := hsaved
    isNew := hnew
    others := fun content hcontent => h.others hcontent
    untouched := fun hidle => absurd hidle himport
    stopped := fun heq => absurd heq hne
    untagged := by
      intro htag
      obtain ⟨htag', hattributes, hpending, hskipped⟩ := h.untouched_of_untagged htag
      exact ⟨htag', hattributes, hpending, hskipped⟩
    carriedOut := by
      intro m' tag _ _ hc' _ htag
      rw [hc] at hc'
      obtain rfl := Option.some.inj hc'
      obtain ⟨htag', hpending, hvalue, hskipped⟩ := h.carriedOut_of_held htag
      exact ⟨htag', hpending, hvalue, hskipped⟩ }

end FailedWrite

namespace Rulebook

variable {b : Rulebook} {c : Context} {d d' : Desk}

theorem idle_of_unmoved (h : d.Unmoved d')
    (hidle : d.item.isNew = true ∨ c.migration = none ∨ b.isCopy d.item = false) :
    d'.item.isNew = true ∨ c.migration = none ∨ b.isCopy d'.item = false := by
  obtain ⟨kept, hitem⟩ := h.item
  rw [hitem]
  exact hidle

/-- A save of an item that cannot be written answers the failure of the write unless it was stopped
before it, and leaves nothing behind but what the reconciliation of an imported copy has done. -/
theorem save_of_failing_write (b : Rulebook) (c : Context) (e : Item → Failure) {d d' : Desk}
    {r : Result SaveOutcome} (hclock : d.store.supply.ShowsDates)
    (h : (b.save c fun i => .error (e i)).run d = (r, d')) : FailedWrite b c e d r d' := by
  by_cases hidle : d.item.isNew = true ∨ c.migration = none ∨ b.isCopy d.item = false
  · cases stages h with
    | unchecked hcheck => exact .of_unmoved (unmoved_of_check hcheck) (.inr ⟨_, rfl⟩)
    | rejected hcheck => exact .of_unmoved (unmoved_of_check hcheck) (.inl ⟨_, rfl⟩)
    | unprepared hcheck hprepare =>
      rw [run_prepare_of_idle (idle_of_unmoved (unmoved_of_check hcheck) hidle)] at hprepare
      cases hprepare
    | unwritten hcheck hprepare hwrite =>
      rw [run_prepare_of_idle (idle_of_unmoved (unmoved_of_check hcheck) hidle)] at hprepare
      cases hprepare
      cases hwrite
      exact .of_handOver (unmoved_of_check hcheck) hidle
    | unrecorded hcheck hprepare hwrite => cases hwrite
    | saved hcheck hprepare hwrite => cases hwrite
  · obtain ⟨hnew, himport⟩ := not_or.1 hidle
    obtain ⟨hmigration, hcopy⟩ := not_or.1 himport
    obtain ⟨m, hc⟩ := Option.ne_none_iff_exists'.1 hmigration
    have hnew : d.item.isNew = false := Bool.eq_false_iff.2 hnew
    have hcopy : b.isCopy d.item = true := by simpa using hcopy
    cases stages h with
    | unchecked hcheck => exact .of_unmoved (unmoved_of_check hcheck) (.inr ⟨_, rfl⟩)
    | rejected hcheck => exact .of_unmoved (unmoved_of_check hcheck) (.inl ⟨_, rfl⟩)
    | unprepared hcheck hprepare =>
      rw [run_check_import hc] at hcheck
      cases hcheck
      rw [run_prepare_of_not_isNew hnew] at hprepare
      exact .of_reconciled_error (reconciled hc hcopy hclock hprepare) hidle
    | unwritten hcheck hprepare hwrite =>
      rw [run_check_import hc] at hcheck
      cases hcheck
      rw [run_prepare_of_not_isNew hnew] at hprepare
      cases hwrite
      exact .of_reconciled (reconciled hc hcopy hclock hprepare) hc hidle
    | unrecorded hcheck hprepare hwrite => cases hwrite
    | saved hcheck hprepare hwrite => cases hwrite

end Rulebook

namespace Sample

/-- The import of a page whose content is locked, when the page cannot be written. -/
theorem failedWrite_import :
    FailedWrite rulebook (.importing (importUnder (.only .content))) (fun _ => .writeRefused)
      (desk ["body"]) (.error .writeRefused)
      ((rulebook.save (.importing (importUnder (.only .content))) fun _ => .error .writeRefused).run
        (desk ["body"])).2 :=
  Rulebook.save_of_failing_write rulebook (.importing (importUnder (.only .content)))
    (fun _ => .writeRefused) showsDates_supply rfl

/-- A write that fails does not leave all tags as they were: the import above forgets a change that
the child course made. -/
theorem not_unchanged_of_failing_write :
    ¬ ∀ (b : Rulebook) (c : Context) (e : Failure) (d d' : Desk) (tag : ChildTag),
      d.store.supply.ShowsDates → (b.save c fun _ => .error e).run d = (.error e, d') →
      d.store.stored.childTag? d.item.key = .ok (some tag) →
      ∃ tag', d'.store.stored.childTag? d.item.key = .ok (some tag') ∧
        tag'.changes = tag.changes := by
  intro h
  obtain ⟨tag', htag', hchanges⟩ := h rulebook (.importing (importUnder (.only .content)))
    .writeRefused (desk ["body"]) _ (tag page ["body"]) showsDates_supply rfl rfl
  obtain rfl : (tag page ["body"]).withChanges ∅ .epoch = tag' :=
    Option.some.inj (Except.ok.inj htag')
  exact absurd hchanges (by decide)

end Sample

end CourseBlueprint
