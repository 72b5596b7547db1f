import CourseBlueprint.Proofs.Save.Reconciliation

/-!
# Locks that an import obeys

The scope query calls a category restricted if it has a lock of its own or everything is locked. The
reconciliation of an import and its preview only know locks of their own. They follow the query for
every category but those that are restricted by the lock of everything alone and have recorded
changes (`obeysLock_iff`).
-/

namespace CourseBlueprint

/-- Whether a category governs a column and no other one does. -/
def Schema.OnlyIn (s : Schema) (g : Category) (column : String) : Prop :=
  ∀ g', column ∈ s.columns g' ↔ g' = g

namespace Rulebook

open Reconciliation (Plan)

/-- What obeying the lock of a category would mean for a reconciliation that starts at `d` and ends
at `d'`, and for the categories that the preview answers. -/
structure ObeysLock (b : Rulebook) (g : Category) (restricted : Bool) (d d' : Desk)
    (kept : List Category) : Prop where
  removed : restricted = true → ∀ column ∈ (b.schemaOf d.item).columns g, ¬ d'.Records column
  notUndone : restricted = true → ∀ column, (b.schemaOf d.item).OnlyIn g column →
    column ≠ d.item.stateColumn → d'.item.pending.get? column = d.item.pending.get? column
  unlisted : restricted = true → g ∉ kept
  notRemoved : restricted = false → ∀ column, (b.schemaOf d.item).OnlyIn g column →
    column ≠ manuallyDeleted → d.Records column → d'.Records column
  undone : restricted = false → (∃ column ∈ (b.schemaOf d.item).columns g, d.Records column) →
    ∀ column ∈ (b.schemaOf d.item).columns g, d'.item.pending.get? column = none
  listed : restricted = false →
    (g ∈ kept ↔ ∃ column ∈ (b.schemaOf d.item).columns g, d.Records column)

variable {b : Rulebook} {c : Context} {m : Migration} {d d' : Desk}

/-! ## The preview -/

/-- The categories without a lock of their own that have recorded changes. -/
def unlockedRecorded (r : Restrictions) (tag : ChildTag) (s : Schema) : List Category :=
  (s.entries.filter fun (g, columns) =>
    !r.isLocked g && !(tag.changesWithin columns).isEmpty).map Prod.fst

theorem mem_unlockedRecorded {r : Restrictions} {tag : ChildTag} {s : Schema} {g : Category} :
    g ∈ unlockedRecorded r tag s ↔ r.isLocked g = false ∧ tag.Records s g := by
  rw [unlockedRecorded, List.mem_map]
  constructor
  · rintro ⟨⟨g', columns⟩, hmem, rfl⟩
    obtain ⟨hentry, hkept⟩ := List.mem_filter.1 hmem
    rw [Bool.and_eq_true, Bool.not_eq_true', Bool.not_eq_true'] at hkept
    obtain ⟨x, hx, hchanges⟩ := Plan.changesWithin_isEmpty_eq_false.1 hkept.2
    exact ⟨hkept.1, x, Schema.mem_columns.2 ⟨columns, hentry, hx⟩, hchanges⟩
  · rintro ⟨hlocked, x, hx, hchanges⟩
    obtain ⟨columns, hentry, hx⟩ := Schema.mem_columns.1 hx
    refine ⟨(g, columns), List.mem_filter.2 ⟨hentry, ?_⟩, rfl⟩
    rw [Bool.and_eq_true, Bool.not_eq_true', Bool.not_eq_true']
    exact ⟨hlocked, Plan.changesWithin_isEmpty_eq_false.2 ⟨x, hx, hchanges⟩⟩

/-- The preview of an import looks at the tag of a copy, as far as it is seen, and goes by the locks in
force if that records anything. -/
theorem run_keptCategories (hc : c.migration = some m) (hcopy : b.isCopy d.item = true) :
    (b.keptCategories c).run d =
      match d.store.seen.childTag? d.item.key with
      | .error e => (.error e, d)
      | .ok none => (.ok [], d)
      | .ok (some tag) =>
        if tag.changes.isEmpty then (.ok [], d)
        else (.ok (unlockedRecorded (d.item.locksIn m) tag (b.schemaOf d.item)),
          d.withLocks (d.item.locksIn m)) := by
  have himport : (!c.isImport || !b.isCopy d.item) = false := by
    simp [Context.isImport, hc, hcopy]
  rw [keptCategories, Action.run_bind_ok (Work.run_item d)]
  simp only [himport, Bool.false_eq_true, if_false]
  rw [Action.run_bind, Work.run_store_of (Store.run_childTag? d.item.key d.store)]
  rcases d.store.seen.childTag? d.item.key with e | _ | tag
  · rfl
  · rfl
  · simp only
    cases tag.changes.isEmpty with
    | true => rfl
    | false =>
      simp only [Bool.false_eq_true, if_false]
      rw [Action.run_bind_ok (run_restrictionsInForce_import hc)]
      rfl

/-- The preview answers the categories without a lock of their own that have recorded changes, as
far as they are seen; it may keep the locks with the item. -/
theorem of_keptCategories (hc : c.migration = some m) (hcopy : b.isCopy d.item = true)
    {kept : List Category} (h : (b.keptCategories c).run d = (.ok kept, d')) :
    (d' = d ∨ d' = d.withLocks (d.item.locksIn m)) ∧
      ∀ g, g ∈ kept ↔ (d.item.locksIn m).isLocked g = false ∧
        ∃ tag, d.store.seen.childTag? d.item.key = .ok (some tag) ∧
          tag.Records (b.schemaOf d.item) g := by
  rw [run_keptCategories hc hcopy] at h
  rcases hseen : d.store.seen.childTag? d.item.key with e | _ | tag
  · rw [hseen] at h
    cases h
  · rw [hseen] at h
    obtain ⟨hkept, rfl⟩ := Prod.mk.inj h
    rw [← Except.ok.inj hkept]
    simp
  · rw [hseen] at h
    simp only at h
    cases hchanges : tag.changes.isEmpty with
    | true =>
      rw [hchanges] at h
      obtain ⟨hkept, rfl⟩ := Prod.mk.inj h
      refine ⟨.inl rfl, fun g => ?_⟩
      rw [← Except.ok.inj hkept]
      constructor
      · intro hg
        exact absurd hg List.not_mem_nil
      · rintro ⟨-, _, ⟨⟩, x, -, hx⟩
        exact absurd hx (NameSet.isEmpty_iff.1 hchanges x)
    | false =>
      rw [hchanges] at h
      obtain ⟨hkept, rfl⟩ := Prod.mk.inj h
      refine ⟨.inr rfl, fun g => ?_⟩
      rw [← Except.ok.inj hkept, mem_unlockedRecorded]
      simp

/-- The preview answers for a copy whose tag is seen. -/
theorem run_keptCategories_of_seen {tag : ChildTag} (hc : c.migration = some m)
    (hcopy : b.isCopy d.item = true)
    (htag : d.store.seen.childTag? d.item.key = .ok (some tag)) :
    ∃ kept d', (b.keptCategories c).run d = (.ok kept, d') := by
  rw [run_keptCategories hc hcopy, htag]
  simp only
  split
  · exact ⟨_, _, rfl⟩
  · exact ⟨_, _, rfl⟩

/-! ## Obeying locks -/

section Obeying

variable {g : Category} {reconciliation : Reconciliation} {kept : List Category}

/-- Whether a category has recorded changes, by the tag that is held. -/
theorem exists_records_iff :
    (∃ column ∈ (b.schemaOf d.item).columns g, d.Records column) ↔
      ∃ tag, d.store.stored.childTag? d.item.key = .ok (some tag) ∧
        tag.Records (b.schemaOf d.item) g := by
  constructor
  · rintro ⟨column, hcolumn, tag, htag, hchanges⟩
    exact ⟨tag, htag, column, hcolumn, hchanges⟩
  · rintro ⟨tag, htag, column, hcolumn, hchanges⟩
    exact ⟨column, hcolumn, tag, htag, hchanges⟩

/-- A category with a lock of its own, or without recorded changes, loses what is recorded and keeps
what is pending. -/
theorem Reconciled.obeysLock_of_restricted (h : b.Reconciled m d (.ok reconciliation) d')
    (hlocked : (d.item.locksIn m).isLocked g = true ∨
      ¬ ∃ column ∈ (b.schemaOf d.item).columns g, d.Records column)
    (hkept : g ∈ kept ↔ (d.item.locksIn m).isLocked g = false ∧
      ∃ column ∈ (b.schemaOf d.item).columns g, d.Records column) :
    b.ObeysLock g true d d' kept where
  removed := by
    intro _ column hcolumn hrecords
    rcases h.held_or_untagged with hnone | ⟨tag, htag⟩
    · exact h.records_of_untagged hnone column hrecords
    · obtain ⟨hchanges, hforget⟩ := (h.records_iff htag column).1 hrecords
      rcases hlocked with hlocked | hnone
      · exact hforget (Plan.mem_forget_full.2 (.inl ⟨hchanges, g, hcolumn, hlocked⟩))
      · exact hnone ⟨column, hcolumn, tag, htag, hchanges⟩
  notUndone := by
    intro _ column honly hstate
    rcases h.pending_same_or_takenBack column with hsame | ⟨tag, htag, hback⟩
    · exact hsame
    · rcases Plan.mem_takeBack_full.1 hback with ⟨-, g', hcolumn, hfree, hrecords⟩ | ⟨hcolumn, -⟩
      · obtain rfl := (honly g').1 hcolumn
        rcases hlocked with hlocked | hnone
        · rw [hlocked] at hfree
          cases hfree
        · exact absurd (exists_records_iff.2 ⟨tag, htag, hrecords⟩) hnone
      · exact absurd hcolumn hstate
  unlisted := by
    intro _ hg
    obtain ⟨hfree, hrecords⟩ := hkept.1 hg
    rcases hlocked with hlocked | hnone
    · rw [hlocked] at hfree
      cases hfree
    · exact hnone hrecords
  notRemoved := fun h => nomatch h
  undone := fun h => nomatch h
  listed := fun h => nomatch h

/-- A category that is not locked keeps what is recorded, and loses what is pending if anything
is. -/
theorem Reconciled.obeysLock_of_not_restricted (h : b.Reconciled m d (.ok reconciliation) d')
    (hfree : (d.item.locksIn m).isLocked g = false)
    (hkept : g ∈ kept ↔ (d.item.locksIn m).isLocked g = false ∧
      ∃ column ∈ (b.schemaOf d.item).columns g, d.Records column) :
    b.ObeysLock g false d d' kept where
  removed := fun h => nomatch h
  notUndone := fun h => nomatch h
  unlisted := fun h => nomatch h
  notRemoved := by
    rintro _ column honly hdeleted ⟨tag, htag, hchanges⟩
    refine (h.records_iff htag column).2 ⟨hchanges, fun hforget => ?_⟩
    rcases Plan.mem_forget_full.1 hforget with ⟨-, g', hcolumn, hlocked⟩ | ⟨hcolumn, -⟩
    · obtain rfl := (honly g').1 hcolumn
      rw [hfree] at hlocked
      cases hlocked
    · exact hdeleted hcolumn
  undone := by
    intro _ hrecords column hcolumn
    obtain ⟨tag, htag, hrecords⟩ := exists_records_iff.1 hrecords
    rw [(h.carriedOut_of_held htag).pending]
    by_cases hback : column ∈ (b.planIn m tag d.item).takeBack
    · rw [if_pos hback]
    · rw [if_neg hback]
      -- a pending column of the category would have been taken back
      refine Option.not_isSome_iff_eq_none.1 fun hpending => hback ?_
      exact Plan.mem_takeBack_full.2
        (.inl ⟨Dict.mem_keys_iff.2 hpending, g, hcolumn, hfree, hrecords⟩)
  listed := by
    intro _
    rw [hkept]
    exact and_iff_right hfree

end Obeying

/-- A category that is restricted is obeyed exactly if it has a lock of its own or no recorded
change; a category that is not restricted always is. -/
theorem obeysLock_iff {g : Category} {restricted : Bool} {reconciliation : Reconciliation}
    {kept : List Category} {d₁ d₂ d₃ : Desk} (hclock : d.store.supply.ShowsDates)
    (hshown : d.store.seen.childTag? d.item.key = d.store.stored.childTag? d.item.key)
    (hc : c.migration = some m) (hcopy : b.isCopy d.item = true)
    (hscope : (b.isRestricted c (.only (.only g))).run d = (.ok restricted, d₁))
    (hreconcile : (b.reconcile c).run d = (.ok reconciliation, d₂))
    (hpreview : (b.keptCategories c).run d = (.ok kept, d₃)) :
    restricted = ((d.item.locksIn m).locksEverything || (d.item.locksIn m).isLocked g) ∧
      (b.ObeysLock g restricted d d₂ kept ↔
        (restricted = true → (d.item.locksIn m).isLocked g = true ∨
          ¬ ∃ column ∈ (b.schemaOf d.item).columns g, d.Records column)) := by
  have hrestricted : restricted =
      ((d.item.locksIn m).locksEverything || (d.item.locksIn m).isLocked g) := by
    rw [run_isRestricted hcopy (run_restrictionsInForce_import hc),
      Restrictions.restrict_only] at hscope
    exact (Except.ok.inj (Prod.mk.inj hscope).1).symm
  have hreconciled : b.Reconciled m d (.ok reconciliation) d₂ :=
    reconciled hc hcopy hclock hreconcile
  have hkept : g ∈ kept ↔ (d.item.locksIn m).isLocked g = false ∧
      ∃ column ∈ (b.schemaOf d.item).columns g, d.Records column := by
    rw [(of_keptCategories hc hcopy hpreview).2, hshown, exists_records_iff]
  refine ⟨hrestricted, ?_⟩
  constructor
  · intro hobeys htrue
    by_cases hlocked : (d.item.locksIn m).isLocked g = true
    · exact .inl hlocked
    · refine .inr fun hrecords => hobeys.unlisted htrue (hkept.2 ⟨?_, hrecords⟩)
      exact Bool.eq_false_iff.2 hlocked
  · intro hcondition
    cases hr : restricted with
    | true => exact hreconciled.obeysLock_of_restricted (hcondition hr) hkept
    | false =>
      rw [hr] at hrestricted
      exact hreconciled.obeysLock_of_not_restricted (Bool.or_eq_false_iff.1 hrestricted.symm).2
        hkept

end Rulebook

namespace Sample

/-- A lock of the content is obeyed. -/
theorem obeysLock_content :
    rulebook.ObeysLock .content true (desk ["body"])
      ((rulebook.reconcile (.importing (importUnder (.only .content)))).run (desk ["body"])).2
      [] := by
  have hscope : (rulebook.isRestricted (.importing (importUnder (.only .content)))
      (.only (.only .content))).run (desk ["body"]) = (.ok true, _) := rfl
  have hreconcile : (rulebook.reconcile (.importing (importUnder (.only .content)))).run
      (desk ["body"]) = (.ok (.partiallyOverwritten (.ofList ["body"]) ∅), _) := rfl
  have hpreview : (rulebook.keptCategories (.importing (importUnder (.only .content)))).run
      (desk ["body"]) = (.ok [], _) := rfl
  have hlocked : ((desk ["body"]).item.locksIn (importUnder (.only .content))).isLocked .content =
      true := rfl
  exact (Rulebook.obeysLock_iff showsDates_supply rfl rfl rfl hscope hreconcile hpreview).2.2
    fun _ => .inl hlocked

/-- A lock of everything is not: the import leaves the copy as the child course has it. -/
theorem not_obeysLock_everything :
    ¬ ∀ (b : Rulebook) (c : Context) (m : Migration) (d d₁ d₂ d₃ : Desk) (g : Category)
      (restricted : Bool) (reconciliation : Reconciliation) (kept : List Category),
      d.store.supply.ShowsDates → d.store.isOpen = true → c.migration = some m →
      b.isCopy d.item = true → d.item.childRestrictions = none → g ∈ (b.schemaOf d.item).categories →
      (b.isRestricted c (.only (.only g))).run d = (.ok restricted, d₁) →
      (b.reconcile c).run d = (.ok reconciliation, d₂) →
      (b.keptCategories c).run d = (.ok kept, d₃) → b.ObeysLock g restricted d d₂ kept := by
  intro h
  have hobeys := h rulebook (.importing (importUnder .everything)) (importUnder .everything)
    (desk ["body"]) _ _ _ .content true .fullyPreserved [.content] showsDates_supply rfl rfl rfl rfl
    (by decide) rfl rfl rfl
  exact hobeys.unlisted rfl List.mem_cons_self

end Sample

end CourseBlueprint
