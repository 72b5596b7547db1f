import CourseBlueprint.Proofs.Save.Importing

/-!
# The order of an import

An import saves items one after the other. It leaves the store alone, so that each item is imported from
the same store; or writing works, and each item ends as the tag says that was held for it in the
beginning (`Rulebook.imported_of_mapM`), since the others do not touch its row. So items with distinct
keys can be imported in any order (`Rulebook.importAll_perm`).
-/

namespace CourseBlueprint

namespace Rulebook

/-- Saves items as an import does, one after the other. The migration collects the tags of those that
were only partly written. -/
def importAll (b : Rulebook) (write : Persist) :
    Migration → List Item → Action Store (List ItemImport × Migration)
  | m, [] => return ([], m)
  | m, i :: items => do
    let e ← b.importOne write m i
    let (ends, m') ← b.importAll write (m.addSkipped e.skipped) items
    return (e :: ends, m')

variable {b : Rulebook} {write : Persist} {m : Migration} {i : Item} {items items' : List Item}
  {ends : List ItemImport} {s s₁ s' : Store} {rows : List ChildTag}

/-! ## What the migration collects -/

/-- What a migration has collected does not bear on a save. -/
theorem save_importing_addSkipped (tags : List ChildTag) :
    b.save (.importing (m.addSkipped tags)) write = b.save (.importing m) write := by
  funext d
  show (b.save _ write).run d = (b.save _ write).run d
  cases hnew : d.item.isNew with
  | true =>
    rw [run_save_import_of_isNew rfl hnew, run_save_import_of_isNew rfl hnew]
    rfl
  | false =>
    have hreconcile : (b.reconcile (.importing (m.addSkipped tags))).run d =
        (b.reconcile (.importing m)).run d := by
      cases hcopy : b.isCopy d.item with
      | false => rw [run_reconcile_of_idle (.inr hcopy), run_reconcile_of_idle (.inr hcopy)]
      | true =>
        rw [run_reconcile rfl hcopy, run_reconcile rfl hcopy]
        rfl
    rw [run_save_import rfl hnew, run_save_import rfl hnew, hreconcile]

theorem importAll_eq_mapM (m : Migration) (items : List Item) :
    b.importAll write m items = (fun ends => (ends, m.addSkipped (ends.flatMap ItemImport.skipped))) <$>
      items.mapM (b.importOne write m) := by
  induction items generalizing m with
  | nil => simp [importAll, Migration.addSkipped]
  | cons i items ih =>
    have hsame : ∀ tags, b.importOne write (m.addSkipped tags) = b.importOne write m := by
      intro tags
      funext i
      rw [importOne, importOne, save_importing_addSkipped]
    rw [importAll, List.mapM_cons, map_bind]
    refine bind_congr fun e => ?_
    rw [ih, hsame, map_bind]
    simp [Migration.addSkipped]

/-! ## Items in turn -/

/-- Items that leave the store alone are all imported from the same store. -/
theorem run_mapM_of_idle {f : Item → ItemImport}
    (h : ∀ i ∈ items, (b.importOne write m i).run s = (.ok (f i), s)) :
    (items.mapM (b.importOne write m)).run s = (.ok (items.map f), s) := by
  induction items with
  | nil => rfl
  | cons i items ih =>
    obtain ⟨hfirst, hrest⟩ := List.forall_mem_cons.1 h
    exact Action.run_mapM_cons_eq_ok.2 ⟨_, s, _, hfirst, ih hrest, rfl⟩

/-- Items that are all imported leave the store alone, or writing works and the child tags can be
read. -/
theorem idle_or_works_of_mapM (hclock : s.supply.ShowsDates)
    (h : (items.mapM (b.importOne write m)).run s = (.ok ends, s')) :
    (∀ i ∈ items, ∃ e, (b.importOne write m i).run s = (.ok e, s)) ∨
      s.Works ∧ ∃ rows, s.stored.childTags = .ok rows := by
  induction items generalizing ends with
  | nil => exact .inl fun _ hi => absurd hi List.not_mem_nil
  | cons i items ih =>
    obtain ⟨e, s₁, rest, hfirst, hrest, -⟩ := Action.run_mapM_cons_eq_ok.1 h
    rcases idle_or_works_of_importOne hclock hfirst with rfl | hworks
    · exact (ih hrest).imp_left fun hidle => List.forall_mem_cons.2 ⟨⟨e, hfirst⟩, hidle⟩
    · exact .inr hworks

/-- The import of an item leaves later ones the tags that they go by. -/
theorem ImportedOne.tagFor_eq {rows' : List ChildTag} {j : Item} (h : b.ImportedOne m i rows rows')
    (hne : j.key ≠ i.key) : b.tagFor m rows' j = b.tagFor m rows j := by
  rw [tagFor, tagFor, h.others _ hne]

theorem key_ne_of_mem (hkeys : ((i :: items).map Item.key).Nodup) {j : Item} (hj : j ∈ items) :
    j.key ≠ i.key := by
  rw [List.map_cons, List.nodup_cons] at hkeys
  exact fun heq => hkeys.1 (heq ▸ List.mem_map_of_mem hj)

/-- Items with distinct keys that are imported in turn each end as the tag says that was held for it in
the beginning. -/
theorem imported_of_mapM (hkeys : (items.map Item.key).Nodup) (hclock : s.supply.ShowsDates)
    (hrows : s.stored.childTags = .ok rows)
    (h : (items.mapM (b.importOne write m)).run s = (.ok ends, s')) :
    ends = items.map (fun i => b.ending m i (b.tagFor m rows i)) ∧
      (∀ i ∈ items, write (b.importedItem m i (b.tagFor m rows i)) = .ok ()) ∧
      ∃ rows', s'.stored = s.stored.withChildTags rows' ∧ b.Imported m items rows rows' := by
  induction items generalizing s rows ends with
  | nil =>
    obtain ⟨rfl, rfl⟩ := Action.run_pure_eq_ok.1 h
    exact ⟨rfl, fun _ hi => absurd hi List.not_mem_nil, rows, (Stored.withChildTags_of_rows hrows).symm,
      .nil b m rows⟩
  | cons i items ih =>
    obtain ⟨e, s₁, rest, hfirst, hrest, rfl⟩ := Action.run_mapM_cons_eq_ok.1 h
    obtain ⟨rfl, hwrite, hclock₁, rows₁, hstored₁, hone⟩ := importedOne hclock hrows hfirst
    obtain ⟨rfl, hwrites, rows', hstored', himported⟩ := ih (List.nodup_cons.1 hkeys).2 hclock₁
      (congrArg Stored.childTags hstored₁) hrest
    have htag : ∀ j ∈ items, b.tagFor m rows₁ j = b.tagFor m rows j :=
      fun j hj => hone.tagFor_eq (key_ne_of_mem hkeys hj)
    refine ⟨?_, List.forall_mem_cons.2 ⟨hwrite, fun j hj => htag j hj ▸ hwrites j hj⟩, rows', ?_,
      himported.cons hkeys hone⟩
    · rw [List.map_cons, List.map_congr_left fun j hj => by rw [htag j hj]]
    · rw [hstored', hstored₁]
      rfl

/-- Where writing works and the child tags can be read, items with distinct keys are all imported if
each can be written. -/
theorem exists_mapM (hkeys : (items.map Item.key).Nodup) (hclock : s.supply.ShowsDates)
    (hworks : s.Works) (hrows : s.stored.childTags = .ok rows)
    (hwrites : ∀ i ∈ items, write (b.importedItem m i (b.tagFor m rows i)) = .ok ()) :
    ∃ ends s', (items.mapM (b.importOne write m)).run s = (.ok ends, s') := by
  induction items generalizing s rows with
  | nil => exact ⟨[], s, rfl⟩
  | cons i items ih =>
    obtain ⟨hwrite, hwrites⟩ := List.forall_mem_cons.1 hwrites
    obtain ⟨e, s₁, hfirst, hworks₁⟩ := exists_importOne hclock hworks hrows hwrite
    obtain ⟨-, -, hclock₁, rows₁, hstored₁, hone⟩ := importedOne hclock hrows hfirst
    obtain ⟨rest, s', hrest⟩ := ih (List.nodup_cons.1 hkeys).2 hclock₁ hworks₁
      (congrArg Stored.childTags hstored₁)
      fun j hj => by rw [hone.tagFor_eq (key_ne_of_mem hkeys hj), hwrites j hj]
    exact ⟨_, s', Action.run_mapM_cons_eq_ok.2 ⟨e, s₁, rest, hfirst, hrest, rfl⟩⟩

end Rulebook

/-- Whether two ways to go on from what is held come to the same: the tables are as they were, or the
child tags are the same but for what is new. -/
def Stored.SameButNew (st st₁ st₂ : Stored) : Prop :=
  (st₁ = st ∧ st₂ = st) ∨ ∃ rows rows₁ rows₂, st.childTags = .ok rows ∧
    st₁ = st.withChildTags rows₁ ∧ st₂ = st.withChildTags rows₂ ∧ Tables.SameRows rows rows₁ rows₂

namespace Rulebook

variable {b : Rulebook} {write : Persist} {m : Migration} {items items' : List Item}
  {ends : List ItemImport} {s s₁ : Store}

/-! ## Any order -/

theorem run_importAll_eq_ok {m₁ : Migration} :
    (b.importAll write m items).run s = (.ok (ends, m₁), s₁) ↔
      (items.mapM (b.importOne write m)).run s = (.ok ends, s₁) ∧
        m₁ = m.addSkipped (ends.flatMap ItemImport.skipped) := by
  rw [importAll_eq_mapM, Action.run_map]
  rcases (items.mapM (b.importOne write m)).run s with ⟨error | ends', s'⟩
  · simp [Except.map]
  · simp only [Except.map, Prod.mk.injEq, Except.ok.injEq]
    constructor
    · rintro ⟨⟨rfl, rfl⟩, rfl⟩
      exact ⟨⟨rfl, rfl⟩, rfl⟩
    · rintro ⟨⟨rfl, rfl⟩, rfl⟩
      exact ⟨⟨rfl, rfl⟩, rfl⟩

/-- Items with distinct keys can be imported in any order: if all are imported in one, they are in any
other, each of them ends alike, the same tags are skipped, and the rows are the same but for the
identifiers and times that are new. -/
theorem importAll_perm (hperm : items.Perm items') (hkeys : (items.map Item.key).Nodup)
    (hclock : s.supply.ShowsDates) {m₁ : Migration}
    (h : (b.importAll write m items).run s = (.ok (ends, m₁), s₁)) :
    ∃ ends' m₂ s₂, (b.importAll write m items').run s = (.ok (ends', m₂), s₂) ∧
      (∃ f : Item → ItemImport, ends = items.map f ∧ ends' = items'.map f) ∧
      m₁.skipped.Perm m₂.skipped ∧ s.stored.SameButNew s₁.stored s₂.stored := by
  obtain ⟨hrun, rfl⟩ := run_importAll_eq_ok.1 h
  -- it is enough to run the items without the migration's collection
  suffices hother : ∃ f s₂, ends = items.map f ∧
      (items'.mapM (b.importOne write m)).run s = (.ok (items'.map f), s₂) ∧
      s.stored.SameButNew s₁.stored s₂.stored by
    obtain ⟨f, s₂, rfl, hrun', hsame⟩ := hother
    refine ⟨_, _, s₂, run_importAll_eq_ok.2 ⟨hrun', rfl⟩, ⟨f, rfl, rfl⟩, ?_, hsame⟩
    exact ((hperm.map f).flatMap_right _).append_left _
  rcases idle_or_works_of_mapM hclock hrun with hidle | ⟨hworks, rows, hrows⟩
  · have htotal : ∀ i, ∃ e, i ∈ items → (b.importOne write m i).run s = (.ok e, s) := fun i => by
      by_cases hi : i ∈ items
      · obtain ⟨e, he⟩ := hidle i hi
        exact ⟨e, fun _ => he⟩
      · exact ⟨plainEnding i, fun hi' => absurd hi' hi⟩
    choose f hf using htotal
    obtain ⟨hends, hstore⟩ := Prod.mk.inj (hrun.symm.trans (run_mapM_of_idle hf))
    refine ⟨f, s, Except.ok.inj hends, run_mapM_of_idle fun i hi => hf i (hperm.mem_iff.2 hi),
      .inl ⟨by rw [hstore], rfl⟩⟩
  · have hkeys' : (items'.map Item.key).Nodup := (hperm.map _).nodup_iff.1 hkeys
    obtain ⟨hends, hwrites, rows₁, hstored₁, himported₁⟩ := imported_of_mapM hkeys hclock hrows hrun
    obtain ⟨ends', s₂, hrun'⟩ := exists_mapM hkeys' hclock hworks hrows
      fun i hi => hwrites i (hperm.mem_iff.2 hi)
    obtain ⟨rfl, -, rows₂, hstored₂, himported₂⟩ := imported_of_mapM hkeys' hclock hrows hrun'
    exact ⟨_, s₂, hends, hrun', .inr ⟨rows, rows₁, rows₂, hrows, hstored₁, hstored₂,
      himported₁.sameRows hperm hkeys himported₂⟩⟩

end Rulebook

/-! ## Two pages -/

namespace Sample

/-- A copy of another page, which the import makes. -/
def otherPage : Item :=
  { Item.new ⟨.wikiPage, ⟨2⟩⟩ with migrationId := some "mastercourse_other" }

/-- A page keeps its body and is skipped, and another page is made, in either order. -/
theorem importAll_perm_pages :
    [edited, otherPage].Perm [otherPage, edited] ∧ ([edited, otherPage].map Item.key).Nodup ∧
    (store [tag page ["body"]]).supply.ShowsDates ∧ ∃ ends m₁ s₁,
      (rulebook.importAll .noop (.new subscription) [edited, otherPage]).run
        (store [tag page ["body"]]) = (.ok (ends, m₁), s₁) ∧
      m₁.skipped = [tag page ["body"]] ∧ ∃ ends' m₂ s₂,
        (rulebook.importAll .noop (.new subscription) [otherPage, edited]).run
          (store [tag page ["body"]]) = (.ok (ends', m₂), s₂) ∧
        (∃ f : Item → ItemImport, ends = [edited, otherPage].map f ∧
          ends' = [otherPage, edited].map f) ∧
        m₁.skipped.Perm m₂.skipped ∧
        (store [tag page ["body"]]).stored.SameButNew s₁.stored s₂.stored := by
  have hperm : [edited, otherPage].Perm [otherPage, edited] := .swap _ _ _
  have hkeys : ([edited, otherPage].map Item.key).Nodup := by decide
  refine ⟨hperm, hkeys, showsDates_supply, _, _, _, rfl, rfl, ?_⟩
  exact Rulebook.importAll_perm hperm hkeys showsDates_supply rfl

end Sample

end CourseBlueprint
