import CourseBlueprint.Proofs.Command.DeletionFlag
import CourseBlueprint.Proofs.Save.Importing

/-!
# The columns that a sync tells as kept

A sync whose reconciliation took changes back, and did nothing else, tells which columns of the child
course it kept. Where changes were also forgotten, the reconciliation answers what it took back
(`Rulebook.mem_preserved_iff`); here it does not, and the sync tells the columns that it was to write
and did not, as they were requested. A column is told if its change was taken back (`Desk.Undoes`), but
also if none was pending, since the sync had nothing to write there (`Command.Idles`); and each is told
as often as it was requested. `Command.kept_tells_undone_iff` says when these are the columns that were
taken back, each once.
-/

namespace CourseBlueprint

/-- Whether the change that was pending for a column on a desk is not pending any more on another. -/
def Desk.Undoes (d d' : Desk) (column : String) : Prop :=
  column ∈ d.item.pending.keys ∧ column ∉ d'.item.pending.keys

/-! ## What is taken back -/

namespace Rulebook

open Reconciliation (Plan)

variable {b : Rulebook} {m : Migration} {i : Item} {s : Store} {d : Desk} {tag : ChildTag}
  {reconciliation : Reconciliation} {column : String}

theorem pending_importedItem (hnew : i.isNew = false) :
    (b.importedItem m i tag).pending.get? column =
      if column ∈ (b.importPlan m i tag).takeBack then none else i.pending.get? column := by
  cases hclean : tag.changes.isEmpty with
  | true =>
    have hidle : (i.isNew || tag.changes.isEmpty) = true := by rw [hclean, Bool.or_true]
    rw [importedItem_of_idle hidle, importPlan_of_idle hidle]
    rfl
  | false =>
    rw [importedItem_of_recorded hnew hclean, importPlan_of_recorded hnew hclean,
      Item.pending_restore]
    rfl

theorem mem_pending_of_takeBack (hnew : i.isNew = false)
    (h : column ∈ (b.importPlan m i tag).takeBack) : column ∈ i.pending.keys := by
  cases hclean : tag.changes.isEmpty with
  | true =>
    rw [importPlan_of_idle (by rw [hclean, Bool.or_true])] at h
    cases h
  | false =>
    rw [importPlan_of_recorded hnew hclean, planIn] at h
    rcases Plan.mem_takeBack_full.1 h with ⟨hpending, -⟩ | ⟨rfl, hback, -⟩
    · exact hpending
    · exact Plan.mem_pending_of_bringsBack hback

/-- A reconciliation carries out the plan for some tag: what it undoes is what that takes back, and
nothing becomes pending. -/
theorem undoes_of_reconcile (hnew : i.isNew = false)
    (h : (b.reconcile (.importing m)).run ⟨s, i, [], []⟩ = (.ok reconciliation, d)) :
    ∃ tag, reconciliation = (b.importPlan m i tag).outcome ∧
      (∀ column, Desk.Undoes ⟨s, i, [], []⟩ d column ↔
        column ∈ (b.importPlan m i tag).takeBack) ∧
      ∀ column ∈ d.item.pending.keys, column ∈ i.pending.keys := by
  rw [run_reconcile_fetched hnew] at h
  rcases hfetch : (b.fetchTag m i).run s with ⟨e | tag, s₁⟩
  · rw [hfetch] at h
    cases (Prod.mk.inj h).1
  rw [hfetch] at h
  simp only at h
  rcases hforget : (forget tag (b.importPlan m i tag)).run s₁ with ⟨e | _, s'⟩
  · rw [hforget] at h
    cases (Prod.mk.inj h).1
  rw [hforget] at h
  obtain ⟨hanswer, rfl⟩ := Prod.mk.inj h
  have hpending : ∀ column, column ∈ (b.importedItem m i tag).pending.keys ↔
      column ∉ (b.importPlan m i tag).takeBack ∧ column ∈ i.pending.keys := by
    intro column
    rw [Dict.mem_keys_iff, Dict.mem_keys_iff, pending_importedItem hnew]
    by_cases htaken : column ∈ (b.importPlan m i tag).takeBack
    · simp [htaken]
    · simp [htaken]
  refine ⟨tag, (Except.ok.inj hanswer).symm, fun column => ?_, fun column hcolumn =>
    ((hpending column).1 hcolumn).2⟩
  constructor
  · rintro ⟨hbefore, hafter⟩
    by_contra htaken
    exact hafter ((hpending column).2 ⟨htaken, hbefore⟩)
  · intro htaken
    exact ⟨mem_pending_of_takeBack hnew htaken, fun hafter => ((hpending column).1 hafter).1 htaken⟩

/-- A reconciliation that also forgot changes answers itself what it undid. -/
theorem mem_preserved_iff {overwritten preserved : NameSet} (hnew : i.isNew = false)
    (h : (b.reconcile (.importing m)).run ⟨s, i, [], []⟩ =
      (.ok (.partiallyOverwritten overwritten preserved), d)) :
    column ∈ preserved ↔ Desk.Undoes ⟨s, i, [], []⟩ d column := by
  obtain ⟨tag, houtcome, hundoes, -⟩ := undoes_of_reconcile hnew h
  rw [hundoes]
  unfold Plan.outcome at houtcome
  split at houtcome
  · obtain ⟨-, rfl⟩ := Reconciliation.partiallyOverwritten.inj houtcome
    exact NameSet.mem_ofList
  · split at houtcome
    · cases houtcome
    · cases houtcome

end Rulebook

/-- A plan that preserves everything takes something back. -/
theorem Reconciliation.Plan.exists_mem_takeBack {p : Reconciliation.Plan}
    (h : p.outcome = .fullyPreserved) : ∃ column, column ∈ p.takeBack := by
  unfold outcome at h
  split at h
  · cases h
  · split at h
    · next hsome =>
      refine List.exists_mem_of_ne_nil _ fun hnone => ?_
      rw [hnone] at hsome
      cases hsome
    · cases h

namespace Command

variable {b : Rulebook} {s s' : Store} {id : Uuid} {master : ContentKey} {report : Report}
  {tag : ChildTag} {assignments : List Assignment} {column : String} {kept : List String}
  {before after : Desk}

/-! ## What is to be written -/

theorem mem_requestedColumns :
    column ∈ requestedColumns tag assignments ↔ column ∈ (requests tag assignments).map Prod.fst := by
  rw [requestedColumns, requests, List.map_append, List.mem_append, List.mem_append, or_comm]
  cases tag.isManuallyDeleted with
  | true => rfl
  | false => rfl

/-- Whether a sync that is to write a column has nothing to write there: the value that it gives the
column last is the one that it takes the copy to have, which is null but for the state of a copy that was
deleted. -/
def Idles (tag : ChildTag) (assignments : List Assignment) (column : String) : Prop :=
  ∃ v, Item.lastAssigned column (requests tag assignments) = some v ∧
    ((copyBefore tag).value column).same v = true

/-- The requested columns are those that become pending, and those where there is nothing to write. -/
theorem mem_pending_copyWanted_iff :
    column ∈ (copyWanted tag assignments).pending.keys ↔
      column ∈ requestedColumns tag assignments ∧ ¬ Idles tag assignments column := by
  rw [Dict.mem_keys_iff, copyWanted_eq, Item.isSome_pending_setAll rfl, mem_requestedColumns,
    ← Item.isSome_lastAssigned, Idles]
  cases Item.lastAssigned column (requests tag assignments) with
  | none => simp [Json.same_refl]
  | some v => simp

/-- Any column but the state idles if it is given null last. -/
theorem idles_iff_null (hstate : column ≠ tag.content.kind.stateColumn) :
    Idles tag assignments column ↔ Item.lastAssigned column assignments = some .null := by
  have hlast : Item.lastAssigned column (requests tag assignments) =
      Item.lastAssigned column assignments := by
    rw [requests]
    cases tag.isManuallyDeleted with
    | true => simp [Item.lastAssigned, Ne.symm hstate]
    | false => rfl
  have hnull : (copyBefore tag).value column = .null := by
    rw [value_copyBefore, if_neg fun h => hstate h.2]
  have hsame : ∀ v, Json.null.same v = true ↔ v = .null := by
    intro v
    rw [← Bool.not_eq_false, Json.null_same_eq_false, not_not]
  rw [Idles, hlast, hnull]
  constructor
  · rintro ⟨v, hv, hidle⟩
    rw [hv, (hsame v).1 hidle]
  · intro hv
    exact ⟨_, hv, (hsame _).2 rfl⟩

theorem Idles.mem_requestedColumns (h : Idles tag assignments column) :
    column ∈ requestedColumns tag assignments := by
  obtain ⟨v, hlast, -⟩ := h
  rw [Command.mem_requestedColumns, ← Item.isSome_lastAssigned, hlast]
  rfl

/-! ## What is told -/

/-- A sync that preserved what was changed in the child course. It has imported a copy, which it wanted
to be as it is on the desk `before`, and the reconciliation only took changes back and left the desk
`after`. The columns `kept` that it was to write and did not are those that it tells. -/
structure FullyPreserves (b : Rulebook) (s : Store) (id : Uuid) (master : ContentKey)
    (assignments : List Assignment) (report : Report) (tag : ChildTag) (kept : List String)
    (before after : Desk) : Prop where
  imported : ∃ sub t masterTag tags m s₁ done,
    SyncBegun b s id master sub t masterTag tags m s₁ ∧
    (tags.find? fun tag => tag.migrationId = some (t.migrationId b.settings.marker master)) =
      some tag ∧
    before = ⟨s₁, copyWanted tag assignments, [], []⟩ ∧
    (b.reconcile (.importing m)).run before = (.ok .fullyPreserved, after) ∧
    (b.save (.importing m) .noop).run before = (.ok (.saved done), after.handOver.applied) ∧
    report.save = some done ∧
    report.messages = [resyncMessage
      (tag.content.text ++ " in course " ++ sub.childCourseId.hyphenated) kept .fullyPreserved]
  kept_eq : kept = keptColumns (requestedColumns tag assignments) after.handOver.applied.item

/-- Whether the columns that are told are those whose changes were taken back, each once. -/
structure TellsUndone (kept : List String) (before after : Desk) : Prop where
  nodup : kept.Nodup
  mem_iff : ∀ column, column ∈ kept ↔ before.Undoes after column

theorem fullyPreserves_of_sync {done : SaveReport}
    (h : (sync b id master assignments).run s = (.ok report, s')) (hsave : report.save = some done)
    (hdone : done.reconciliation = .fullyPreserved) : ∃ tag kept before after,
      FullyPreserves b s id master assignments report tag kept before after := by
  obtain ⟨tag, d, -, hrewrites, -⟩ := rewrites_of_sync h (by rw [hsave]; exact Option.some_ne_none _)
  obtain ⟨sub, t, masterTag, tags, m, s₁, done', hbegun, hfind, hrun, hsave', hmessages⟩ :=
    hrewrites.imported
  obtain rfl := Option.some.inj (hsave.symm.trans hsave')
  obtain ⟨after, hreconcile, rfl⟩ :=
    Rulebook.run_reconcile_of_saved rfl (isNew_copyWanted tag assignments) hrun
  rw [hdone] at hreconcile hmessages
  exact ⟨tag, _, _, after, ⟨sub, t, masterTag, tags, m, s₁, done, hbegun, hfind, rfl, hreconcile, hrun,
    hsave, hmessages⟩, rfl⟩

namespace FullyPreserves

variable (h : FullyPreserves b s id master assignments report tag kept before after)
include h

theorem mem_kept : column ∈ kept ↔
    column ∈ requestedColumns tag assignments ∧ column ∉ after.item.pending.keys := by
  rw [h.kept_eq, keptColumns, List.mem_filter, Bool.not_eq_true', Dict.contains, ← Bool.not_eq_true,
    ← Dict.mem_keys_iff]
  rfl

/-- If none of the requested columns was written, all of them are told. -/
theorem kept_eq_requested (hall : ∀ column ∈ requestedColumns tag assignments, column ∈ kept) :
    kept = requestedColumns tag assignments := by
  rw [h.kept_eq, keptColumns] at hall ⊢
  exact List.filter_eq_self.2 fun column hcolumn => (List.mem_filter.1 (hall column hcolumn)).2

/-- A column is told as often as it was requested. -/
theorem count_kept (hcolumn : column ∈ kept) :
    kept.count column = (requestedColumns tag assignments).count column := by
  rw [h.kept_eq, keptColumns] at hcolumn ⊢
  exact List.count_filter (List.mem_filter.1 hcolumn).2

theorem mem_before : column ∈ before.item.pending.keys ↔
    column ∈ requestedColumns tag assignments ∧ ¬ Idles tag assignments column := by
  obtain ⟨sub, t, masterTag, tags, m, s₁, done, -, -, rfl, -⟩ := h.imported
  exact mem_pending_copyWanted_iff

theorem mem_before_of_after (hafter : column ∈ after.item.pending.keys) :
    column ∈ before.item.pending.keys := by
  obtain ⟨sub, t, masterTag, tags, m, s₁, done, -, -, rfl, hreconcile, -⟩ := h.imported
  obtain ⟨tag', -, -, hpending⟩ :=
    Rulebook.undoes_of_reconcile (isNew_copyWanted tag assignments) hreconcile
  exact hpending column hafter

/-- Something was taken back. -/
theorem exists_undoes : ∃ column, before.Undoes after column := by
  obtain ⟨sub, t, masterTag, tags, m, s₁, done, -, -, rfl, hreconcile, -⟩ := h.imported
  obtain ⟨tag', houtcome, hundoes, -⟩ :=
    Rulebook.undoes_of_reconcile (isNew_copyWanted tag assignments) hreconcile
  obtain ⟨column, hcolumn⟩ := Reconciliation.Plan.exists_mem_takeBack houtcome.symm
  exact ⟨column, (hundoes column).2 hcolumn⟩

/-- The columns that are told are those that were taken back, and those where there was nothing to
write. -/
theorem mem_kept_iff : column ∈ kept ↔ before.Undoes after column ∨ Idles tag assignments column := by
  rw [h.mem_kept, Desk.Undoes, h.mem_before]
  constructor
  · rintro ⟨hrequested, hafter⟩
    by_cases hidles : Idles tag assignments column
    · exact .inr hidles
    · exact .inl ⟨⟨hrequested, hidles⟩, hafter⟩
  · rintro (⟨⟨hrequested, -⟩, hafter⟩ | hidles)
    · exact ⟨hrequested, hafter⟩
    · exact ⟨hidles.mem_requestedColumns, fun hafter =>
        (h.mem_before.1 (h.mem_before_of_after hafter)).2 hidles⟩

theorem tellsUndone_iff : TellsUndone kept before after ↔
    ∀ column ∈ kept, (requestedColumns tag assignments).count column = 1 ∧
      ¬ Idles tag assignments column := by
  constructor
  · intro htells column hcolumn
    refine ⟨?_, fun hidles => ?_⟩
    · rw [← h.count_kept hcolumn]
      exact List.count_eq_one_of_mem htells.nodup hcolumn
    · exact (h.mem_before.1 ((htells.mem_iff column).1 hcolumn).1).2 hidles
  · intro hall
    refine ⟨List.nodup_iff_count_eq_one.2 fun column hcolumn => ?_, fun column => ?_⟩
    · rw [h.count_kept hcolumn]
      exact (hall column hcolumn).1
    · refine h.mem_kept_iff.trans (or_iff_left_of_imp fun hidles => ?_)
      exact absurd hidles (hall column (h.mem_kept_iff.2 (.inr hidles))).2

end FullyPreserves

/-- A sync that preserved what was changed in the child course tells as kept the columns whose changes
were taken back and those where it had nothing to write, each as often as it was requested. So it tells
what was taken back, each column once, exactly if every column that it tells was requested once and it
had something to write there. -/
theorem kept_tells_undone_iff {done : SaveReport}
    (h : (sync b id master assignments).run s = (.ok report, s')) (hsave : report.save = some done)
    (hdone : done.reconciliation = .fullyPreserved) : ∃ tag kept before after,
      FullyPreserves b s id master assignments report tag kept before after ∧
      (∀ column, column ∈ kept ↔ before.Undoes after column ∨ Idles tag assignments column) ∧
      (∀ column ∈ kept, kept.count column = (requestedColumns tag assignments).count column) ∧
      (TellsUndone kept before after ↔
        ∀ column ∈ kept, (requestedColumns tag assignments).count column = 1 ∧
          ¬ Idles tag assignments column) := by
  obtain ⟨tag, kept, before, after, hpreserves⟩ := fullyPreserves_of_sync h hsave hdone
  exact ⟨tag, kept, before, after, hpreserves, fun _ => hpreserves.mem_kept_iff,
    fun _ => hpreserves.count_kept, hpreserves.tellsUndone_iff⟩

end Command

/-! ## A page that was edited -/

namespace Sample

/-- The store after a page was synced and the body of its copy edited. -/
def editedStore : Store :=
  runEvents rulebook (firstSync ++ [.request (.edit (copyTag []).content ["body=new"] false false)])
    (.inMemory supply)

/-- Another sync of the page. -/
def syncEdited (assignments : List Assignment) : Result Report × Store :=
  (Command.sync rulebook (supply.ids 1) page assignments).run editedStore

/-- Another body is brought. -/
def otherBody : List Assignment := [("body", .string "other")]

/-- Two bodies are brought, and null for a column that the child course has not changed. -/
def twoBodies : List Assignment :=
  [("body", .string "other"), ("body", .string "third"), ("editing_roles", .null)]

/-- The copy is the only one, and both syncs preserve what was changed. -/
theorem run_syncEdited :
    editedStore.stored.childTags.toOption = some [copyTag ["body"]] ∧
    (syncEdited otherBody).1.toOption.map (fun report =>
      report.save.map SaveReport.reconciliation) = some (some .fullyPreserved) ∧
    (syncEdited twoBodies).1.toOption.map (fun report =>
      report.save.map SaveReport.reconciliation) = some (some .fullyPreserved) := by
  decide +kernel

theorem fullyPreserved_of_syncEdited {assignments : List Assignment}
    (h : (syncEdited assignments).1.toOption.map (fun report =>
      report.save.map SaveReport.reconciliation) = some (some .fullyPreserved)) :
    ∃ report done s, syncEdited assignments = (.ok report, s) ∧ report.save = some done ∧
      done.reconciliation = .fullyPreserved := by
  obtain ⟨report, hreport, hsave⟩ := Option.map_eq_some_iff.1 h
  obtain ⟨done, hdone, hpreserved⟩ := Option.map_eq_some_iff.1 hsave
  exact ⟨report, done, _, Prod.ext (Result.toOption_eq_some.1 hreport) rfl, hdone, hpreserved⟩

/-- A sync of the page finds its copy. -/
theorem tag_of_fullyPreserves {assignments : List Assignment} {report : Report} {tag : ChildTag}
    {kept : List String} {before after : Desk} (h : Command.FullyPreserves rulebook editedStore
      (supply.ids 1) page assignments report tag kept before after) : tag = copyTag ["body"] := by
  have hs : editedStore.Orderly rulebook :=
    orderly_runEvents (Store.orderly_of_empty showsDates_supply rfl) _
  obtain ⟨sub, t, masterTag, tags, m, s₁, done, hbegun, hfind, -⟩ := h.imported
  obtain ⟨rows, hrows, -, hmem⟩ := (hbegun.syncing hs.ready hs.keyed).contents
  obtain rfl := Except.ok.inj ((Result.toOption_eq_some.1 run_syncEdited.1).symm.trans hrows)
  exact List.mem_singleton.1 ((hmem tag).1 (List.mem_of_find?_eq_some hfind)).1

/-- The body that is brought is taken back, so the body is told once. -/
theorem tells_body : ∃ report s tag kept before after, syncEdited otherBody = (.ok report, s) ∧
    Command.FullyPreserves rulebook editedStore (supply.ids 1) page otherBody report tag kept before
      after ∧ Command.TellsUndone kept before after := by
  obtain ⟨report, done, s, hrun, hsave, hdone⟩ := fullyPreserved_of_syncEdited run_syncEdited.2.1
  obtain ⟨tag, kept, before, after, hpreserves, hmem, -, htells⟩ :=
    Command.kept_tells_undone_iff hrun hsave hdone
  obtain rfl := tag_of_fullyPreserves hpreserves
  refine ⟨report, s, _, kept, before, after, hrun, hpreserves, htells.2 fun column hcolumn => ?_⟩
  have hrequested : column ∈ Command.requestedColumns (copyTag ["body"]) otherBody :=
    (hpreserves.mem_kept.1 hcolumn).1
  obtain rfl : column = "body" := List.mem_singleton.1 hrequested
  refine ⟨by decide, fun hidles => ?_⟩
  cases (Command.idles_iff_null (by decide)).1 hidles

/-- The body is told twice, and a column is told of which nothing was taken back. -/
theorem not_tells_undone : ∃ report done s tag before after,
    syncEdited twoBodies = (.ok report, s) ∧ report.save = some done ∧
      done.reconciliation = .fullyPreserved ∧
      Command.FullyPreserves rulebook editedStore (supply.ids 1) page twoBodies report tag
        ["body", "body", "editing_roles"] before after ∧
      (∀ column, before.Undoes after column ↔ column = "body") ∧
      ¬ Command.TellsUndone ["body", "body", "editing_roles"] before after := by
  obtain ⟨report, done, s, hrun, hsave, hdone⟩ := fullyPreserved_of_syncEdited run_syncEdited.2.2
  obtain ⟨tag, kept, before, after, hpreserves⟩ :=
    Command.fullyPreserves_of_sync hrun hsave hdone
  obtain rfl := tag_of_fullyPreserves hpreserves
  have hroles : Command.Idles (copyTag ["body"]) twoBodies "editing_roles" :=
    (Command.idles_iff_null (by decide)).2 rfl
  have hcases : ∀ column ∈ Command.requestedColumns (copyTag ["body"]) twoBodies,
      column = "body" ∨ column = "editing_roles" := by decide
  -- what is taken back is requested and does not idle
  have honly : ∀ column, before.Undoes after column → column = "body" := by
    intro column hundoes
    obtain ⟨hrequested, hwritten⟩ := hpreserves.mem_before.1 hundoes.1
    rcases hcases column hrequested with rfl | rfl
    · rfl
    · exact absurd hroles hwritten
  have hbody : before.Undoes after "body" := by
    obtain ⟨column, hundoes⟩ := hpreserves.exists_undoes
    exact honly column hundoes ▸ hundoes
  have hkept : kept = ["body", "body", "editing_roles"] := by
    refine hpreserves.kept_eq_requested fun column hcolumn => hpreserves.mem_kept_iff.2 ?_
    rcases hcases column hcolumn with rfl | rfl
    · exact .inl hbody
    · exact .inr hroles
  subst hkept
  refine ⟨report, done, s, _, before, after, hrun, hsave, hdone, hpreserves, fun column =>
    ⟨honly column, ?_⟩, fun htells => absurd htells.nodup (by decide)⟩
  rintro rfl
  exact hbody

end Sample

end CourseBlueprint
