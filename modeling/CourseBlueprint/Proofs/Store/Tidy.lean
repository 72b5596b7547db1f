import CourseBlueprint.Proofs.Store.Soundness

/-!
# Tidy tables

What holds of the rows whatever identifiers were drawn and whatever the digests of content are: a course
has one template at most, a subscription one copy at most under a migration identifier, copies are of
kinds that can belong to a blueprint, and only governed columns and deletions are recorded. Every change
of rows keeps it (`Stored.Change.tidy`), and so do any number of moves of a store (`Store.Moves.tidy`).
-/

namespace CourseBlueprint

/-- Which rows are held once at most, and what they record, by the rules of a deployment. -/
structure Stored.Tidy (b : Rulebook) (st : Stored) : Prop where
  courses : ∀ rows, st.templates = .ok rows → (rows.map Template.courseId).Nodup
  copies : ∀ rows, st.childTags = .ok rows →
    (rows.map fun c => (c.subscriptionId, c.migrationId)).Nodup
  kinds : ∀ rows, st.childTags = .ok rows → ∀ c ∈ rows, c.content.kind.allowedInBlueprint = true
  changes : ∀ rows, st.childTags = .ok rows → ∀ c ∈ rows, ∀ x ∈ c.changes,
    x ∈ (b.registry c.content.kind).allColumns ∨ x = manuallyDeleted

theorem Stored.tidy_empty (b : Rulebook) : (Stored.of .empty).Tidy b := by
  refine ⟨?_, ?_, ?_, ?_⟩
  · intro rows hrows
    obtain rfl := Except.ok.inj hrows
    exact List.nodup_nil
  · intro rows hrows
    obtain rfl := Except.ok.inj hrows
    exact List.nodup_nil
  · intro rows hrows c hc
    obtain rfl := Except.ok.inj hrows
    exact absurd hc List.not_mem_nil
  · intro rows hrows c hc
    obtain rfl := Except.ok.inj hrows
    exact absurd hc List.not_mem_nil

theorem Stored.Change.tidy {b : Rulebook} {asked : ContentKey → Prop} {new : Uuid → Prop}
    {st st' : Stored} (h : st.Change b asked new st')
    (hkinds : ∀ k, asked k → k.kind.allowedInBlueprint = true) (hst : st.Tidy b) : st'.Tidy b := by
  cases h with
  | template hid hrows hnew =>
    refine { hst with courses := fun rows' hrows' => ?_ }
    obtain rfl := Except.ok.inj hrows'
    exact Tables.nodup_map_append (hst.courses _ hrows) hnew
  | subscription => exact { hst with }
  | masterTag => exact { hst with }
  | locks => exact { hst with }
  | @copy rows t sub master masterTag made hsub ht hfollows hasked hmaster hmasterId hid hkind
      hsubscription hchanges hrows hnew honce =>
    refine { hst with
      copies := fun rows' hrows' => ?_, kinds := fun rows' hrows' => ?_,
      changes := fun rows' hrows' => ?_ }
    · obtain rfl := Except.ok.inj hrows'
      refine Tables.nodup_map_append (hst.copies rows hrows) fun row hrow heq => ?_
      obtain ⟨hours, hsame⟩ := Prod.mk.inj heq
      exact honce row hrow (hours.trans hsubscription) hsame
    · obtain rfl := Except.ok.inj hrows'
      refine Tables.forall_mem_append (hst.kinds rows hrows) ?_
      rw [hkind]
      exact hkinds master hasked
    · obtain rfl := Except.ok.inj hrows'
      refine Tables.forall_mem_append (hst.changes rows hrows) fun x hx => ?_
      rw [hchanges] at hx
      exact absurd hx (NameSet.not_mem_empty x)
  | @changes tag changes _ hgoverned hset =>
    obtain ⟨rows, time, hrows, hheld, rfl⟩ := hset
    refine { hst with
      copies := fun rows' hrows' => ?_, kinds := fun rows' hrows' => ?_,
      changes := fun rows' hrows' => ?_ }
    · obtain rfl := Except.ok.inj hrows'
      exact Tables.nodup_map_replaceFirst hheld rfl (hst.copies rows hrows)
    · obtain rfl := Except.ok.inj hrows'
      intro c hc
      rcases Tables.mem_replaceFirst hc with rfl | hc
      · exact hst.kinds rows hrows tag (List.mem_of_find?_eq_some hheld)
      · exact hst.kinds rows hrows c hc
    · obtain rfl := Except.ok.inj hrows'
      intro c hc x hx
      rcases Tables.mem_replaceFirst hc with rfl | hc
      · rcases hgoverned x hx with hx | hx
        · exact hst.changes rows hrows tag (List.mem_of_find?_eq_some hheld) x hx
        · exact hx
      · exact hst.changes rows hrows c hc x hx

theorem Store.Moves.tidy {b : Rulebook} {asked : ContentKey → Prop} {s s' : Store}
    (h : s.Moves b asked s') (hkinds : ∀ k, asked k → k.kind.allowedInBlueprint = true)
    (hs : s.stored.Tidy b) : s'.stored.Tidy b := by
  induction h with
  | refl => exact hs
  | tail hmoves hmove ih =>
    rcases hmove.rows with hsame | ⟨-, hchange⟩
    · rw [hsame]
      exact ih
    · exact hchange.tidy hkinds ih

end CourseBlueprint
