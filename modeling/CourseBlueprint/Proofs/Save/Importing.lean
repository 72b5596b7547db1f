import CourseBlueprint.Proofs.Save.ImportedRows
import CourseBlueprint.Proofs.Save.Recording
import CourseBlueprint.Proofs.Store.Writable

/-!
# The import of an item

To import an item is to fetch its tag, to forget what the locks say of the changes recorded on it, and
to write what is left of the item (`Rulebook.run_importOne_eq_ok`). What becomes of the item depends on
the tag that was held for it, and no row but its own is touched (`Rulebook.importedOne`). An import
that has anything to do to the store shows that writing works there
(`Rulebook.idle_or_works_of_importOne`), and where writing works an import can only fail to write the
item (`Rulebook.exists_importOne`).
-/

namespace CourseBlueprint

/-- What the import of an item ends with: the end of its save, the item as it is then, the tags that
were skipped, and what was handed over to be persisted. -/
structure ItemImport where
  outcome : SaveOutcome
  item : Item
  skipped : List ChildTag
  handed : List (Dict Json)

namespace Rulebook

open Reconciliation (Plan)

/-- Saves an item as an import does. -/
def importOne (b : Rulebook) (write : Persist) (m : Migration) (i : Item) :
    Action Store ItemImport := do
  let (outcome, d) ← Work.on i (b.save (.importing m) write)
  return ⟨outcome, d.item, d.skipped, d.handed⟩

variable {b : Rulebook} {write : Persist} {m : Migration} {i : Item} {e : ItemImport}
  {s s₁ s' : Store} {rows : List ChildTag} {tag : ChildTag}

/-! ## What an import does -/

/-- The item as its import hands it over, if its tag is `tag`. -/
def importedItem (b : Rulebook) (m : Migration) (i : Item) (tag : ChildTag) : Item :=
  if i.isNew || tag.changes.isEmpty then i
  else (i.withLocks (i.locksIn m)).restore (b.importPlan m i tag).takeBack

/-- What the import of an item ends with, if its tag is `tag`. -/
def ending (b : Rulebook) (m : Migration) (i : Item) (tag : ChildTag) : ItemImport where
  outcome := .saved ⟨.unrestricted, (b.importPlan m i tag).outcome, none⟩
  item := (b.importedItem m i tag).changesApplied
  skipped := if (b.importPlan m i tag).takeBack.isEmpty then [] else [b.settleTag m i tag]
  handed := [(b.importedItem m i tag).attributes]

/-- The end of an import that has nothing to reconcile. -/
def plainEnding (i : Item) : ItemImport :=
  ⟨.saved ⟨.unrestricted, .noOverlap, none⟩, i.changesApplied, [], [i.attributes]⟩

/-- The tag of a copy, found or created; any other item goes without one. -/
def fetchTag (b : Rulebook) (m : Migration) (i : Item) : Action Store ChildTag :=
  if b.isCopy i then Store.findOrCreateChildTag m.subscription.id i.key i.migrationId
  else pure (m.blankTag i)

section Idle

variable (h : (i.isNew || tag.changes.isEmpty) = true)
include h

theorem importPlan_of_idle : b.importPlan m i tag = .empty := if_pos h

theorem importedItem_of_idle : b.importedItem m i tag = i := if_pos h

theorem ending_of_idle : b.ending m i tag = plainEnding i := by
  rw [ending, importPlan_of_idle h, importedItem_of_idle h]
  rfl

theorem run_forget_of_idle : (forget tag (b.importPlan m i tag)).run s = (.ok (), s) := by
  rw [importPlan_of_idle h]
  rfl

end Idle

section Recorded

variable (hnew : i.isNew = false) (hrecorded : tag.changes.isEmpty = false)
include hnew hrecorded

theorem importPlan_of_recorded : b.importPlan m i tag = b.planIn m tag i := by
  rw [importPlan, hnew, hrecorded]
  rfl

theorem importedItem_of_recorded :
    b.importedItem m i tag = (i.withLocks (i.locksIn m)).restore (b.planIn m tag i).takeBack := by
  rw [importedItem, hnew, hrecorded, importPlan_of_recorded hnew hrecorded]
  rfl

end Recorded

theorem run_tagCopy_of_copy {d : Desk} {r : Result ChildTag} (hcopy : b.isCopy d.item = true)
    (hfound : (Store.findOrCreateChildTag m.subscription.id d.item.key d.item.migrationId).run
      d.store = (r, s)) :
    (b.tagCopy (.importing m)).run d = (r.map some, { d with store := s }) := by
  rw [tagCopy, Action.run_bind_ok (Work.run_item d)]
  simp only [Context.importing, hcopy, Bool.not_true, Bool.false_eq_true, if_false]
  cases r with
  | error error => exact Action.run_bind_error (Work.run_store_of hfound)
  | ok tag => exact Action.run_bind_ok (Work.run_store_of hfound)

/-- Only the import of a copy gives it a tag. -/
theorem run_tagCopy_of_idle {c : Context} {d : Desk}
    (h : c.migration = none ∨ b.isCopy d.item = false) : (b.tagCopy c).run d = (.ok none, d) := by
  rw [tagCopy, Action.run_bind_ok (Work.run_item d)]
  cases hc : c.migration with
  | none => rfl
  | some m =>
    have hcopy : b.isCopy d.item = false := h.resolve_left (by simp [hc])
    simp only [hcopy, Bool.not_false, if_true]
    rfl

/-- A new item is imported as it is, and then gets its tag. -/
theorem importOne_of_isNew (hnew : i.isNew = true) :
    b.importOne write m i = (do
      liftM (write i)
      let _ ← b.fetchTag m i
      return plainEnding i) := by
  funext s
  show (b.importOne write m i).run s = Action.run _ s
  rw [importOne, Action.run_bind, Work.on, Action.run_of,
    run_save_import_of_isNew (d := ⟨s, i, [], []⟩) rfl hnew, Action.run_bind, Action.run_liftM]
  rcases write i with error | _
  · rfl
  · simp only
    rw [Action.run_bind, fetchTag]
    cases hcopy : b.isCopy i with
    | false =>
      rw [run_tagCopy_of_idle (d := Desk.applied (Desk.handOver ⟨s, i, [], []⟩)) (.inr hcopy)]
      rfl
    | true =>
      rw [if_pos rfl]
      rcases hfound : (Store.findOrCreateChildTag m.subscription.id i.key i.migrationId).run s with
        ⟨error | tag, s'⟩
      · rw [run_tagCopy_of_copy (d := Desk.applied (Desk.handOver ⟨s, i, [], []⟩)) hcopy hfound]
        rfl
      · rw [run_tagCopy_of_copy (d := Desk.applied (Desk.handOver ⟨s, i, [], []⟩)) hcopy hfound]
        rfl

/-- The desk on which an import has carried out a plan. -/
theorem takenBack_withLocks (s : Store) (r : Restrictions) (tag : ChildTag) (p : Plan) :
    (Desk.withLocks ⟨s, i, [], []⟩ r).takenBack tag p =
      ⟨s, (i.withLocks r).restore p.takeBack,
        if p.takeBack.isEmpty then [] else [{ tag with changes := tag.changes \ p.forget }], []⟩ := by
  unfold Desk.takenBack
  cases hnone : p.takeBack.isEmpty with
  | true =>
    rw [List.isEmpty_iff.1 hnone]
    rfl
  | false => rfl

/-- Reconciling an item that is there is to fetch its tag and to carry out the plan for it. -/
theorem run_reconcile_fetched (hnew : i.isNew = false) :
    (b.reconcile (.importing m)).run ⟨s, i, [], []⟩ = match (b.fetchTag m i).run s with
      | (.error error, s₁) => (.error error, ⟨s₁, i, [], []⟩)
      | (.ok tag, s₁) => match (forget tag (b.importPlan m i tag)).run s₁ with
        | (.error error, s') => (.error error, ⟨s', i.withLocks (i.locksIn m), [], []⟩)
        | (.ok _, s') => (.ok (b.importPlan m i tag).outcome,
            ⟨s', b.importedItem m i tag, (b.ending m i tag).skipped, []⟩) := by
  cases hcopy : b.isCopy i with
  | false =>
    have hidle : (i.isNew || (m.blankTag i).changes.isEmpty) = true := by
      rw [hnew]
      rfl
    rw [run_reconcile_of_idle (.inr hcopy), fetchTag, if_neg (by simp [hcopy]), Action.run_pure]
    simp only
    rw [run_forget_of_idle hidle, importedItem_of_idle hidle, ending_of_idle hidle,
      importPlan_of_idle hidle]
    rfl
  | true =>
    rw [run_reconcile rfl hcopy, fetchTag, if_pos hcopy]
    rcases (Store.findOrCreateChildTag m.subscription.id i.key i.migrationId).run s with
      ⟨error | tag, s₁⟩
    · rfl
    · simp only
      cases hclean : tag.changes.isEmpty with
      | true =>
        have hidle : (i.isNew || tag.changes.isEmpty) = true := by rw [hclean, Bool.or_true]
        rw [if_pos rfl, run_forget_of_idle hidle, importedItem_of_idle hidle, ending_of_idle hidle,
          importPlan_of_idle hidle]
        rfl
      | false =>
        rw [if_neg Bool.false_ne_true, importPlan_of_recorded hnew hclean]
        rcases (forget tag (b.planIn m tag i)).run s₁ with ⟨error | _, s'⟩
        · rfl
        · rw [importedItem_of_recorded hnew hclean, ending, importPlan_of_recorded hnew hclean,
            settleTag, importPlan_of_recorded hnew hclean]
          exact congrArg (Prod.mk _) (takenBack_withLocks s' _ _ _)

/-- An item that is there is reconciled with its tag before it is imported. -/
theorem importOne_of_not_isNew (hnew : i.isNew = false) :
    b.importOne write m i = (do
      let tag ← b.fetchTag m i
      forget tag (b.importPlan m i tag)
      liftM (write (b.importedItem m i tag))
      return b.ending m i tag) := by
  funext s
  show (b.importOne write m i).run s = Action.run _ s
  rw [importOne, Action.run_bind, Work.on, Action.run_of,
    run_save_import (d := ⟨s, i, [], []⟩) rfl hnew, run_reconcile_fetched hnew,
    Action.run_bind]
  rcases (b.fetchTag m i).run s with ⟨error | tag, s₁⟩
  · rfl
  · simp only
    rw [Action.run_bind]
    rcases (forget tag (b.importPlan m i tag)).run s₁ with ⟨error | _, s'⟩
    · rfl
    · simp only
      rw [Action.run_bind, Action.run_liftM]
      rcases write (b.importedItem m i tag) with error | _
      · rfl
      · rfl

/-- How an item is imported: its tag is fetched, what is to be forgotten is forgotten, and the item is
written. -/
theorem run_importOne_eq_ok :
    (b.importOne write m i).run s = (.ok e, s') ↔ ∃ tag s₁,
      (b.fetchTag m i).run s = (.ok tag, s₁) ∧
        (forget tag (b.importPlan m i tag)).run s₁ = (.ok (), s') ∧
        write (b.importedItem m i tag) = .ok () ∧ e = b.ending m i tag := by
  cases hnew : i.isNew with
  | true =>
    have hidle : ∀ tag : ChildTag, (i.isNew || tag.changes.isEmpty) = true := fun tag => by
      rw [hnew, Bool.true_or]
    rw [importOne_of_isNew hnew]
    constructor
    · intro h
      obtain ⟨_, s₁, hlift, h⟩ := Action.run_bind_eq_ok.1 h
      obtain ⟨hwrite, rfl⟩ := Action.run_liftM_eq_ok.1 hlift
      obtain ⟨tag, s₂, hfetch, h⟩ := Action.run_bind_eq_ok.1 h
      obtain ⟨rfl, rfl⟩ := Action.run_pure_eq_ok.1 h
      refine ⟨tag, s₂, hfetch, run_forget_of_idle (hidle tag), ?_, (ending_of_idle (hidle tag)).symm⟩
      rw [importedItem_of_idle (hidle tag)]
      exact hwrite
    · rintro ⟨tag, s₁, hfetch, hforget, hwrite, rfl⟩
      rw [run_forget_of_idle (hidle tag)] at hforget
      obtain ⟨-, rfl⟩ := Prod.mk.inj hforget
      rw [importedItem_of_idle (hidle tag)] at hwrite
      rw [hwrite, ending_of_idle (hidle tag)]
      exact Action.run_bind_ok hfetch
  | false =>
    rw [importOne_of_not_isNew hnew]
    constructor
    · intro h
      obtain ⟨tag, s₁, hfetch, h⟩ := Action.run_bind_eq_ok.1 h
      obtain ⟨_, s₂, hforget, h⟩ := Action.run_bind_eq_ok.1 h
      obtain ⟨_, s₃, hlift, h⟩ := Action.run_bind_eq_ok.1 h
      obtain ⟨hwrite, rfl⟩ := Action.run_liftM_eq_ok.1 hlift
      obtain ⟨rfl, rfl⟩ := Action.run_pure_eq_ok.1 h
      exact ⟨tag, s₁, hfetch, hforget, hwrite, rfl⟩
    · rintro ⟨tag, s₁, hfetch, hforget, hwrite, rfl⟩
      rw [Action.run_bind_ok hfetch, Action.run_bind_ok hforget, hwrite]
      rfl

/-! ## What an import leaves -/

/-- The tag that an item goes by in an import: the one that is held, or else one without changes. -/
def tagFor (b : Rulebook) (m : Migration) (rows : List ChildTag) (i : Item) : ChildTag :=
  if b.isCopy i then (Tables.childTagIn rows i.key).getD (m.blankTag i) else m.blankTag i

/-- Where a tag comes from that was fetched: it is the one to go by, or a copy without one got it. -/
def Fetched (b : Rulebook) (m : Migration) (rows : List ChildTag) (i : Item) (tag : ChildTag)
    (st st' : Stored) : Prop :=
  b.lacksTag rows i = false ∧ tag = b.tagFor m rows i ∧ st' = st ∨
    b.lacksTag rows i = true ∧ tag.unstamped = m.blankTag i ∧ st' = st.withChildTags (rows ++ [tag])

theorem fetched (hclock : s.supply.ShowsDates) (hrows : s.stored.childTags = .ok rows)
    (h : (b.fetchTag m i).run s = (.ok tag, s₁)) :
    s₁.supply.ShowsDates ∧ (b.isCopy i = true → s₁.isOpen = true) ∧
      b.Fetched m rows i tag s.stored s₁.stored := by
  unfold fetchTag at h
  cases hcopy : b.isCopy i with
  | false =>
    rw [hcopy, if_neg Bool.false_ne_true] at h
    obtain ⟨rfl, rfl⟩ := Action.run_pure_eq_ok.1 h
    exact ⟨hclock, nofun, .inl ⟨by rw [lacksTag, hcopy, Bool.false_and],
      by rw [tagFor, hcopy, if_neg Bool.false_ne_true], rfl⟩⟩
  | true =>
    rw [hcopy, if_pos rfl] at h
    have hfound := Store.findOrCreateChildTag_spec hclock h
    obtain ⟨hopen, hheld⟩ := hfound.held
    refine ⟨hfound.supply.showsDates hclock, fun _ => hopen, ?_⟩
    rcases hfound.ends with ⟨error, herror, -⟩ | ⟨tag', htag', -, -, hsame | ⟨rows', hrows', hnone,
      hsubscription, hcontent, hmigrationId, hchanges, hstored⟩⟩
    · cases herror
    · rw [hsame, Store.childTag?_of_rows hrows] at hheld
      have hheld := Except.ok.inj hheld
      refine .inl ⟨?_, ?_, hsame⟩
      · rw [lacksTag, hheld, Option.isNone_some, Bool.and_false]
      · rw [tagFor, hcopy, if_pos rfl, hheld, Option.getD_some]
    · obtain rfl := Except.ok.inj htag'
      obtain rfl := Except.ok.inj (hrows.symm.trans hrows')
      refine .inr ⟨?_, ?_, hstored⟩
      · rw [lacksTag, hcopy, hnone]
        rfl
      · rw [ChildTag.unstamped, Migration.blankTag, hsubscription, hcontent, hmigrationId, hchanges]

theorem tagFor_of_lacksTag (h : b.lacksTag rows i = true) : b.tagFor m rows i = m.blankTag i := by
  obtain ⟨-, hnone⟩ := Bool.and_eq_true_iff.1 h
  rw [tagFor, Option.isNone_iff_eq_none.1 hnone, Option.getD_none, ite_self]

/-- A tag that was just made has no changes, and an import ends with it as it would without one. -/
theorem Fetched.same {st st' : Stored} (h : b.Fetched m rows i tag st st') :
    b.ending m i tag = b.ending m i (b.tagFor m rows i) ∧
      b.importedItem m i tag = b.importedItem m i (b.tagFor m rows i) := by
  rcases h with ⟨-, rfl, -⟩ | ⟨hlacks, hblank, -⟩
  · exact ⟨rfl, rfl⟩
  · have hchanges : tag.changes = ∅ := congrArg ChildTag.changes hblank
    have hidle : (i.isNew || tag.changes.isEmpty) = true := by
      rw [hchanges]
      exact Bool.or_true _
    have hidle' : (i.isNew || (m.blankTag i).changes.isEmpty) = true := Bool.or_true _
    rw [tagFor_of_lacksTag hlacks]
    exact ⟨(ending_of_idle hidle).trans (ending_of_idle hidle').symm,
      (importedItem_of_idle hidle).trans (importedItem_of_idle hidle').symm⟩

/-- Forgetting what an import is to forget of a tag that is held settles the rows. -/
theorem settled_of_forget (hcopy : b.isCopy i = true) (hclock : s.supply.ShowsDates)
    (hopen : s.isOpen = true) (hrows : s.stored.childTags = .ok rows)
    (hheld : Tables.childTagIn rows i.key = some tag)
    (h : (forget tag (b.importPlan m i tag)).run s = (.ok (), s')) :
    s'.supply.ShowsDates ∧ ∃ rows', s'.stored = s.stored.withChildTags rows' ∧
      rows'.map ChildTag.undated = b.settleOne m (rows.map ChildTag.undated) i ∧
      ∀ content, content ≠ i.key →
        Tables.childTagIn rows' content = Tables.childTagIn rows content := by
  have hcontent := Tables.content_of_childTagIn hheld
  have htag : s.stored.childTag? tag.content = .ok (some tag) := by
    rw [Store.childTag?_of_rows hrows, hcontent, hheld]
  obtain ⟨hlater, ⟨error, herror, -⟩ | ⟨-, -, ⟨hsame, hstored⟩ | hsets⟩⟩ :=
    forget_spec hclock hopen htag h
  · cases herror
  · -- nothing of what is recorded is forgotten
    refine ⟨hlater.showsDates hclock, rows, ?_, ?_, fun _ _ => rfl⟩
    · rw [hstored, Stored.withChildTags_of_rows hrows]
    · refine (settleOne_of_fixed fun _ => ⟨tag.undated, ?_, ?_⟩).symm
      · rw [childTagIn_undated, hheld, Option.map_some]
      · rw [← undated_settleTag, settleTag, hsame]
  · obtain ⟨rows₁, time, hrows₁, htag₁, hstored⟩ := hsets
    obtain rfl := Except.ok.inj (hrows.symm.trans hrows₁)
    refine ⟨hlater.showsDates hclock, _, hstored, ?_, fun content hne => ?_⟩
    · rw [hcontent]
      exact undated_replaceFirst hcopy hheld time
    · rw [Store.childTagIn_withChanges htag₁, hcontent, if_neg hne]

/-- The import of an item ends as its tag says, and leaves the rows with what it has made of it. -/
theorem importedOne (hclock : s.supply.ShowsDates) (hrows : s.stored.childTags = .ok rows)
    (h : (b.importOne write m i).run s = (.ok e, s')) :
    e = b.ending m i (b.tagFor m rows i) ∧ write (b.importedItem m i (b.tagFor m rows i)) = .ok () ∧
      s'.supply.ShowsDates ∧ ∃ rows', s'.stored = s.stored.withChildTags rows' ∧
        b.ImportedOne m i rows rows' := by
  obtain ⟨tag, s₁, hfetch, hforget, hwrite, rfl⟩ := run_importOne_eq_ok.1 h
  obtain ⟨hclock₁, hopen, hfetched⟩ := fetched hclock hrows hfetch
  obtain ⟨hending, hitem⟩ := hfetched.same
  rw [hitem] at hwrite
  refine ⟨hending, hwrite, ?_⟩
  rcases hfetched with ⟨hlacks, htag, hstored⟩ | ⟨hlacks, hblank, hstored⟩
  · rw [← hstored] at hrows ⊢
    cases hcopy : b.isCopy i with
    | false =>
      rw [tagFor, hcopy, if_neg Bool.false_ne_true] at htag
      obtain rfl := htag
      rw [run_forget_of_idle (Bool.or_true _)] at hforget
      obtain ⟨-, rfl⟩ := Prod.mk.inj hforget
      refine ⟨hclock₁, rows, (Stored.withChildTags_of_rows hrows).symm, .inl ⟨hlacks, ?_⟩, fun _ _ => rfl⟩
      rw [settleOne_of_fixed (by simp [hcopy])]
    | true =>
      obtain ⟨held, hheld⟩ : ∃ held, Tables.childTagIn rows i.key = some held := by
        rw [lacksTag, hcopy, Bool.true_and] at hlacks
        exact Option.isSome_iff_exists.1 (by simpa using hlacks)
      rw [tagFor, hcopy, if_pos rfl, hheld, Option.getD_some] at htag
      obtain rfl := htag
      obtain ⟨hclock', rows', hstored', hsettled, hothers⟩ :=
        settled_of_forget hcopy hclock₁ (hopen hcopy) hrows hheld hforget
      exact ⟨hclock', rows', hstored', .inl ⟨hlacks, hsettled⟩, hothers⟩
  · have hchanges : tag.changes = ∅ := congrArg ChildTag.changes hblank
    have hcontent : tag.content = i.key := congrArg ChildTag.content hblank
    rw [run_forget_of_idle (by rw [hchanges]; exact Bool.or_true _)] at hforget
    obtain ⟨-, rfl⟩ := Prod.mk.inj hforget
    refine ⟨hclock₁, _, hstored, .inr ⟨hlacks, tag, rfl, hblank⟩, fun content hne => ?_⟩
    rw [Tables.childTagIn_append, if_neg (by rw [hcontent]; exact hne.symm), Option.or_none]

/-! ## Whether an import can write -/

theorem mem_changes_of_mem_importPlan {column : String}
    (h : column ∈ (b.importPlan m i tag).forget) : column ∈ tag.changes := by
  unfold importPlan at h
  split at h
  · exact absurd h (NameSet.not_mem_empty column)
  · exact Plan.mem_changes_of_mem_forget h

/-- An item that is imported leaves the store alone, or writing works and the child tags can be read. -/
theorem idle_or_works_of_importOne (hclock : s.supply.ShowsDates)
    (h : (b.importOne write m i).run s = (.ok e, s')) :
    s' = s ∨ s.Works ∧ ∃ rows, s.stored.childTags = .ok rows := by
  obtain ⟨tag, s₁, hfetch, hforget, -⟩ := run_importOne_eq_ok.1 h
  cases hempty : (b.importPlan m i tag).forget.isEmpty with
  | true =>
    rw [run_forget_of_isEmpty hempty] at hforget
    obtain ⟨-, rfl⟩ := Prod.mk.inj hforget
    unfold fetchTag at hfetch
    split at hfetch
    · exact (Store.seen_or_works_of_findOrCreateChildTag hfetch).imp_left And.left
    · exact .inl (Action.run_pure_eq_ok.1 hfetch).2.symm
  | false =>
    obtain ⟨column, hcolumn⟩ : ∃ column, column ∈ (b.importPlan m i tag).forget := by
      simpa using mt NameSet.isEmpty_iff.2 (Bool.eq_false_iff.1 hempty)
    have hchanges := mem_changes_of_mem_importPlan hcolumn
    unfold fetchTag at hfetch
    split at hfetch
    · rcases Store.seen_or_works_of_findOrCreateChildTag hfetch with ⟨rfl, -⟩ | hworks
      · have hheld := (Store.findOrCreateChildTag_spec hclock hfetch).held.2
        obtain ⟨rows, hrows, -⟩ := Store.childTag?_eq_some hheld
        rw [← Store.content_of_childTag? hheld] at hheld
        rw [forget, hempty] at hforget
        obtain ⟨removed, s₂, hremove, -⟩ := Action.run_bind_eq_ok.1 hforget
        exact .inr ⟨Store.works_of_removeChanges hheld hcolumn hchanges hremove, rows, hrows⟩
      · exact .inr hworks
    · obtain ⟨rfl, -⟩ := Action.run_pure_eq_ok.1 hfetch
      exact absurd hchanges (NameSet.not_mem_empty column)

/-- Where writing works and the child tags can be read, an item is imported if it can be written. -/
theorem exists_importOne (hclock : s.supply.ShowsDates) (hworks : s.Works)
    (hrows : s.stored.childTags = .ok rows)
    (hwrite : write (b.importedItem m i (b.tagFor m rows i)) = .ok ()) :
    ∃ e s', (b.importOne write m i).run s = (.ok e, s') ∧ s'.Works := by
  obtain ⟨tag, s₁, hfetch, hworks₁⟩ :
      ∃ tag s₁, (b.fetchTag m i).run s = (.ok tag, s₁) ∧ s₁.Works := by
    unfold fetchTag
    split
    · exact Store.findOrCreateChildTag_answers hclock hworks hrows _ _ _
    · exact ⟨_, s, rfl, hworks⟩
  obtain ⟨hclock₁, -, hfetched⟩ := fetched hclock hrows hfetch
  obtain ⟨rows₁, hrows₁⟩ : ∃ rows₁, s₁.stored.childTags = .ok rows₁ := by
    rcases hfetched with ⟨-, -, hstored⟩ | ⟨-, -, hstored⟩
    · exact ⟨rows, by rw [hstored, hrows]⟩
    · exact ⟨_, by rw [hstored]; rfl⟩
  obtain ⟨s', hforget, hworks'⟩ :
      ∃ s', (forget tag (b.importPlan m i tag)).run s₁ = (.ok (), s') ∧ s'.Works := by
    cases hempty : (b.importPlan m i tag).forget.isEmpty with
    | true => exact ⟨s₁, run_forget_of_isEmpty hempty _ _, hworks₁⟩
    | false =>
      obtain ⟨removed, s', hremove, hworks'⟩ := Store.removeChanges_answers hclock₁ hworks₁ hrows₁
        tag.content (b.importPlan m i tag).forget
      refine ⟨s', ?_, hworks'⟩
      rw [forget, hempty]
      exact Action.run_bind_ok hremove
  rw [← hfetched.same.2] at hwrite
  exact ⟨_, s', run_importOne_eq_ok.2 ⟨tag, s₁, hfetch, hforget, hwrite, rfl⟩, hworks'⟩

end Rulebook

end CourseBlueprint
