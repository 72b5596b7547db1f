import Mathlib.Data.List.Induction
import CourseBlueprint.Proofs.Command.Deletions
import CourseBlueprint.Proofs.Command.Frames

/-!
# What the mark of a deletion says

An edit that deletes a copy is recorded on its child tag, and a sync that writes the state of the copy
takes the mark away. An edit that gives the copy another state does not. So a tag has the mark exactly
if an accepted edit has deleted the copy and no sync has written its state since
(`mark_tells_deletion`), but for syncs that were to write the state under a lock and took it back.
-/

namespace CourseBlueprint

/-! ## What has not happened since -/

/-- At some event of a run `q` has happened, and at none after it has `p`. -/
def NotSince (b : Rulebook) (p q : Store → Event → Prop) (events : List Event) (s : Store) : Prop :=
  ∃ before e after, events = before ++ e :: after ∧ q (runEvents b before s) e ∧
    ∀ between e' rest, after = between ++ e' :: rest →
      ¬ p (runEvents b (before ++ e :: between) s) e'

/-- A member of a list with one more at its end is that one, or a member of the list. -/
theorem eq_or_of_concat_eq {α : Type} {xs before after : List α} {x y : α}
    (h : xs ++ [x] = before ++ y :: after) :
    (before = xs ∧ y = x ∧ after = []) ∨ ∃ rest, after = rest ++ [x] ∧ xs = before ++ y :: rest := by
  rcases List.append_eq_append_iff.1 h with ⟨more, rfl, hlast⟩ | ⟨more, rfl, hmore⟩
  · rcases List.append_eq_singleton_iff.1 hlast.symm with ⟨rfl, hy⟩ | ⟨-, hnone⟩
    · obtain ⟨rfl, rfl⟩ := List.cons.inj hy
      exact .inl ⟨List.append_nil xs, rfl, rfl⟩
    · cases hnone
  · rcases List.cons_eq_append_iff.1 hmore with ⟨rfl, hy⟩ | ⟨rest, rfl, rfl⟩
    · obtain ⟨rfl, rfl⟩ := List.cons.inj hy
      exact .inl ⟨(List.append_nil before).symm, rfl, rfl⟩
    · exact .inr ⟨rest, rfl, rfl⟩

section NotSince

variable {b : Rulebook} {p q : Store → Event → Prop} {s : Store} {events : List Event} {e : Event}

theorem not_notSince_nil : ¬ NotSince b p q [] s := by
  rintro ⟨before, e, after, hevents, -⟩
  simp at hevents

/-- Either `q` happens at the last event, or `p` does not, and has not since `q` did before. -/
theorem notSince_concat : NotSince b p q (events ++ [e]) s ↔ q (runEvents b events s) e ∨
    ¬ p (runEvents b events s) e ∧ NotSince b p q events s := by
  constructor
  · rintro ⟨before, e', after, hevents, hq, hnot⟩
    rcases eq_or_of_concat_eq hevents with ⟨rfl, rfl, rfl⟩ | ⟨after', rfl, rfl⟩
    · exact .inl hq
    · refine .inr ⟨hnot after' e [] rfl, before, e', after', rfl, hq, ?_⟩
      rintro between e'' rest rfl
      exact hnot between e'' (rest ++ [e]) (by simp)
  · rintro (hq | ⟨hp, before, e', after, rfl, hq, hnot⟩)
    · exact ⟨events, e, [], rfl, hq, fun between e' rest hrest => by simp at hrest⟩
    · refine ⟨before, e', after ++ [e], by simp, hq, fun between e'' rest hafter => ?_⟩
      rcases eq_or_of_concat_eq hafter with ⟨rfl, rfl, rfl⟩ | ⟨rest', rfl, rfl⟩
      · exact hp
      · exact hnot between e'' rest' rfl

end NotSince

namespace Request

variable {texts : List String} {assignments : List Assignment} (b : Rulebook) (s : Store)

theorem run_sync (id : Uuid) (master : ContentKey) (h : Assignment.ofTexts texts = .ok assignments) :
    ((Request.sync id master texts).run b).run s = (Command.sync b id master assignments).run s := by
  rw [Request.run, Action.run_bind_ok (Action.run_liftM_eq_ok.2 ⟨h, rfl⟩)]

theorem run_edit (content : ContentKey) (delete system : Bool)
    (h : Assignment.ofTexts texts = .ok assignments) :
    ((Request.edit content texts delete system).run b).run s =
      (Command.edit b content ⟨assignments, delete, system⟩).run s := by
  rw [Request.run, Action.run_bind_ok (Action.run_liftM_eq_ok.2 ⟨h, rfl⟩)]

end Request

/-! ## What happens to a copy -/

namespace Event

/-- An event is an edit of a copy by a user that is answered and not rejected: what is saved is the
item. -/
inductive AcceptsEdit (b : Rulebook) (content : ContentKey) (s : Store) : Event → Item → Prop
  | intro {texts : List String} {assignments : List Assignment} {delete : Bool} {tag : ChildTag}
      {report : Report} {s' : Store} (htexts : Assignment.ofTexts texts = .ok assignments)
      (htag : s.stored.childTag? content = .ok (some tag))
      (hrun : ((Request.edit content texts delete false).run b).run s = (.ok report, s'))
      (haccepted : report.rejected = none) :
      AcceptsEdit b content s (.request (.edit content texts delete false))
        (Command.editedItem tag ⟨assignments, delete, false⟩)

/-- An event is a sync that rewrites a copy: by the tag and what was wanted of the copy it has saved
the item. -/
inductive Resyncs (b : Rulebook) (content : ContentKey) (s : Store) :
    Event → ChildTag → Item → Item → Prop
  | intro {id : Uuid} {master : ContentKey} {texts : List String} {assignments : List Assignment}
      {tag : ChildTag} {d : Desk} {report : Report} {s' : Store}
      (htexts : Assignment.ofTexts texts = .ok assignments)
      (hrun : ((Request.sync id master texts).run b).run s = (.ok report, s'))
      (hcontent : tag.content = content)
      (hrewrites : Command.Rewrites b s id master assignments report tag d) :
      Resyncs b content s (.request (.sync id master texts)) tag
        (Command.copyWanted tag assignments) d.item

/-- An accepted edit writes the state of a copy. -/
def EditsState (b : Rulebook) (content : ContentKey) (s : Store) (e : Event) : Prop :=
  ∃ i, AcceptsEdit b content s e i ∧ content.kind.stateColumn ∈ i.pending.keys

/-- An accepted edit deletes a copy. -/
def Deletes (b : Rulebook) (content : ContentKey) (s : Store) (e : Event) : Prop :=
  ∃ i, AcceptsEdit b content s e i ∧ i.deletes = true

/-- A sync writes the state of a copy. -/
def SyncsState (b : Rulebook) (content : ContentKey) (s : Store) (e : Event) : Prop :=
  ∃ tag wanted saved, Resyncs b content s e tag wanted saved ∧
    content.kind.stateColumn ∈ saved.saved.keys

/-- A sync was to write the state of a copy, something about it is restricted, and yet the state was
taken back. -/
def TakesStateBack (b : Rulebook) (content : ContentKey) (s : Store) (e : Event) : Prop :=
  ∃ tag wanted saved, Resyncs b content s e tag wanted saved ∧
    content.kind.stateColumn ∈ wanted.pending.keys ∧
    content.kind.stateColumn ∉ saved.saved.keys ∧ Command.RestrictsCopy b s tag

variable {b : Rulebook} {content : ContentKey} {s : Store} {e : Event} {tag : ChildTag}
  {wanted saved : Item}

/-- An edit that is answered without a rejection is accepted. -/
theorem AcceptsEdit.of_answer {texts : List String} {assignments : List Assignment} {delete : Bool}
    (htexts : Assignment.ofTexts texts = .ok assignments)
    (htag : s.stored.childTag? content = .ok (some tag))
    (h : (((Request.edit content texts delete false).run b).run s).1.toOption.map Report.rejected =
      some none) :
    AcceptsEdit b content s (.request (.edit content texts delete false))
      (Command.editedItem tag ⟨assignments, delete, false⟩) := by
  obtain ⟨report, hreport, haccepted⟩ := Option.map_eq_some_iff.1 h
  exact .intro htexts htag (Prod.ext (Result.toOption_eq_some.1 hreport) rfl) haccepted

/-- What an accepted edit saves is told by its texts and the tag that is held for the copy. -/
theorem AcceptsEdit.eq_editedItem {edited : ContentKey} {texts : List String}
    {assignments : List Assignment} {delete system : Bool} {i : Item}
    (h : AcceptsEdit b content s (.request (.edit edited texts delete system)) i)
    (htexts : Assignment.ofTexts texts = .ok assignments)
    (htag : s.stored.childTag? content = .ok (some tag)) :
    i = Command.editedItem tag ⟨assignments, delete, false⟩ := by
  cases h with
  | intro htexts' htag' =>
    rw [htexts] at htexts'
    obtain rfl := Except.ok.inj htexts'
    rw [htag] at htag'
    obtain rfl := Option.some.inj (Except.ok.inj htag')
    rfl

section Resyncs

variable (h : Resyncs b content s e tag wanted saved) (hs : s.Orderly b)
include h hs

/-- A sync that rewrites a copy takes its mark away exactly if it is to write the state of the copy
and anything about it is restricted. -/
theorem Resyncs.recordsDeletion_iff
    (hmark : manuallyDeleted ∉ (b.registry content.kind).allColumns) :
    (e.after b s).stored.RecordsDeletion content ↔ s.stored.RecordsDeletion content ∧
      ¬ (content.kind.stateColumn ∈ wanted.pending.keys ∧ Command.RestrictsCopy b s tag) := by
  cases h with
  | @intro id master texts assignments _ d report s' htexts hrun hcontent hrewrites =>
    obtain ⟨sub, t, masterTag, tags, m, s₁, done, hbegun, hexisting, hsave, -, -⟩ :=
      hrewrites.imported
    have himports : Command.Reimports b s tag assignments m s₁ := hbegun.reimports hs hexisting
    have hafter : Event.after b s (.request (.sync id master texts)) = d.store := by
      rw [Event.after, hrun]
      rw [Request.run_sync b s id master htexts] at hrun
      exact hrewrites.store_eq hrun
    obtain rfl := hcontent
    rw [hafter, himports.recordsDeletion_iff hsave hmark, Stored.recordsDeletion_iff himports.held]

/-- A sync writes the state of a copy that was deleted only if anything about the copy is
restricted. -/
theorem Resyncs.restricts_of_saved (hbefore : s.stored.RecordsDeletion content)
    (hstate : content.kind.stateColumn ∈ saved.saved.keys) :
    content.kind.stateColumn ∈ wanted.pending.keys ∧ Command.RestrictsCopy b s tag := by
  cases h with
  | @intro id master texts assignments _ d report s' htexts hrun hcontent hrewrites =>
    obtain ⟨sub, t, masterTag, tags, m, s₁, done, hbegun, hexisting, hsave, -, -⟩ :=
      hrewrites.imported
    have himports : Command.Reimports b s tag assignments m s₁ := hbegun.reimports hs hexisting
    obtain rfl := hcontent
    exact himports.restricts_of_saved hsave
      ((Stored.recordsDeletion_iff himports.held).1 hbefore) hstate

end Resyncs

/-- An event is a sync that rewrites a copy, or else leaves its mark and sets it only if it is an
accepted edit that deletes it. -/
theorem resyncs_or_recordsDeletion_iff (hs : s.Orderly b)
    (hmark : manuallyDeleted ∉ (b.registry content.kind).allColumns) (e : Event) :
    (∃ tag wanted saved, Resyncs b content s e tag wanted saved) ∨
      ((e.after b s).stored.RecordsDeletion content ↔
        s.stored.RecordsDeletion content ∨ Deletes b content s e) := by
  have hleft : ∀ {e : Event}, (e.after b s).stored.childTags = s.stored.childTags →
      ¬ Deletes b content s e → ((e.after b s).stored.RecordsDeletion content ↔
        s.stored.RecordsDeletion content ∨ Deletes b content s e) := by
    intro e hsame hnot
    rw [Stored.recordsDeletion_congr hsame, or_iff_left hnot]
  cases e with
  | refuseWrites on =>
    refine .inr (hleft (by rw [after, (s.alike_refusingWrites on).stored]) ?_)
    rintro ⟨i, hedit, -⟩
    cases hedit
  | request r =>
    by_cases hcopies : r.worksOnCopies = false
    · refine .inr (hleft (Request.childTags_run hs.ready hcopies (Prod.eta _).symm) ?_)
      rintro ⟨i, hedit, -⟩
      cases hedit
      cases hcopies
    cases r with
    | sync id master texts =>
      have hnot : ¬ Deletes b content s (.request (.sync id master texts)) := by
        rintro ⟨i, hedit, -⟩
        cases hedit
      cases htexts : Assignment.ofTexts texts with
      | error f =>
        refine .inr (hleft ?_ hnot)
        rw [after, Request.run, htexts]
        rfl
      | ok assignments =>
        have hrun := Request.run_sync b s id master htexts
        rcases Command.rewrites_or_recordsDeletion_iff hs content hrun.symm with
          ⟨report, tag, d, hanswer, hcontent, hrewrites⟩ | hiff
        · exact .inl ⟨_, _, _, .intro htexts (Prod.ext hanswer rfl) hcontent hrewrites⟩
        · exact .inr (hiff.trans (or_iff_left hnot).symm)
    | edit edited texts delete system =>
      refine .inr ?_
      cases htexts : Assignment.ofTexts texts with
      | error f =>
        refine hleft ?_ ?_
        · rw [after, Request.run, htexts]
          rfl
        · rintro ⟨i, hedit, -⟩
          cases hedit with
          | intro htexts' => rw [htexts] at htexts'; cases htexts'
      | ok assignments =>
        have hrun := Request.run_edit b s edited delete system htexts
        refine (Command.edit_recordsDeletion_iff hs hmark hrun.symm).trans
          (or_congr_right ⟨?_, ?_⟩)
        · rintro ⟨rfl, rfl, tag, report, htag, hanswer, haccepted, hdeletes⟩
          exact ⟨_, .intro htexts htag (Prod.ext hanswer rfl) haccepted, hdeletes⟩
        · rintro ⟨i, hedit, hdeletes⟩
          cases hedit with
          | @intro _ _ _ tag report s' htexts' htag hanswer haccepted =>
            rw [htexts] at htexts'
            obtain rfl := Except.ok.inj htexts'
            exact ⟨rfl, rfl, tag, report, htag, congrArg Prod.fst hanswer, haccepted, hdeletes⟩
    | _ => exact absurd rfl hcopies

section Steps

variable (hs : s.Orderly b) (hmark : manuallyDeleted ∉ (b.registry content.kind).allColumns)
include hs hmark

theorem deletes_or_of_recordsDeletion (h : (e.after b s).stored.RecordsDeletion content) :
    Deletes b content s e ∨
      ¬ SyncsState b content s e ∧ s.stored.RecordsDeletion content := by
  rcases em (Deletes b content s e) with hdeletes | hnot
  · exact .inl hdeletes
  have hbefore : s.stored.RecordsDeletion content := by
    rcases resyncs_or_recordsDeletion_iff hs hmark e with ⟨tag, wanted, saved, hresyncs⟩ | hiff
    · exact ((hresyncs.recordsDeletion_iff hs hmark).1 h).1
    · exact (hiff.1 h).resolve_right hnot
  refine .inr ⟨?_, hbefore⟩
  rintro ⟨tag, wanted, saved, hresyncs, hstate⟩
  exact ((hresyncs.recordsDeletion_iff hs hmark).1 h).2 (hresyncs.restricts_of_saved hs hbefore hstate)

theorem recordsDeletion_of_deletes (h : Deletes b content s e) :
    (e.after b s).stored.RecordsDeletion content := by
  rcases resyncs_or_recordsDeletion_iff hs hmark e with ⟨tag, wanted, saved, hresyncs⟩ | hiff
  · obtain ⟨i, hedit, -⟩ := h
    cases hedit
    cases hresyncs
  · exact hiff.2 (.inr h)

theorem recordsDeletion_of_left (hsyncs : ¬ SyncsState b content s e)
    (hback : ¬ TakesStateBack b content s e) (h : s.stored.RecordsDeletion content) :
    (e.after b s).stored.RecordsDeletion content := by
  rcases resyncs_or_recordsDeletion_iff hs hmark e with ⟨tag, wanted, saved, hresyncs⟩ | hiff
  · refine (hresyncs.recordsDeletion_iff hs hmark).2 ⟨h, ?_⟩
    rintro ⟨hpending, hrestricts⟩
    by_cases hsaved : content.kind.stateColumn ∈ saved.saved.keys
    · exact hsyncs ⟨tag, wanted, saved, hresyncs, hsaved⟩
    · exact hback ⟨tag, wanted, saved, hresyncs, hpending, hsaved, hrestricts⟩
  · exact hiff.2 (.inl h)

end Steps

end Event

variable {b : Rulebook} {s₀ : Store} {content : ContentKey}

/-- After any events on a store that was empty, a copy is recorded as deleted only if a user's edit has
deleted it and no sync has written its state since; and it is if so, unless a sync has taken the state
back since although something about the copy was restricted. No edit takes the record away. -/
theorem mark_tells_deletion (b : Rulebook) (events : List Event) (hclock : s₀.supply.ShowsDates)
    (hempty : s₀.stored = .of .empty)
    (hmark : manuallyDeleted ∉ (b.registry content.kind).allColumns) :
    ((runEvents b events s₀).stored.RecordsDeletion content →
      NotSince b (Event.SyncsState b content) (Event.Deletes b content) events s₀) ∧
    (NotSince b (fun s e => Event.SyncsState b content s e ∨ Event.TakesStateBack b content s e)
        (Event.Deletes b content) events s₀ →
      (runEvents b events s₀).stored.RecordsDeletion content) := by
  have hs₀ : s₀.Orderly b := Store.orderly_of_empty hclock hempty
  induction events using List.reverseRecOn with
  | nil =>
    refine ⟨?_, fun h => absurd h not_notSince_nil⟩
    rintro ⟨tag, htag, -⟩
    rw [runEvents, List.foldl_nil, hempty] at htag
    cases htag
  | append_singleton events e ih =>
    have hs : (runEvents b events s₀).Orderly b := orderly_runEvents hs₀ events
    rw [runEvents_concat, notSince_concat, notSince_concat]
    constructor
    · intro h
      exact (Event.deletes_or_of_recordsDeletion hs hmark h).imp_right (And.imp_right ih.1)
    · rintro (hdeletes | ⟨hnot, hsince⟩)
      · exact Event.recordsDeletion_of_deletes hs hmark hdeletes
      · obtain ⟨hsyncs, hback⟩ := not_or.1 hnot
        exact Event.recordsDeletion_of_left hs hmark hsyncs hback (ih.2 hsince)

/-! ## A page that is deleted and restored -/

namespace Sample

/-- A page is synced to a course that follows a blueprint. -/
def firstSync : List Event :=
  [.request (.makeBlueprint ⟨10⟩), .request (.subscribe ⟨10⟩ ⟨4⟩),
    .request (.sync (supply.ids 1) page [])]

/-- The copy is deleted. -/
def deleting : Event := .request (.edit (copyTag []).content [] true false)

/-- The copy is given the state of content in use. -/
def restoring : Event := .request (.edit (copyTag []).content ["workflow_state=active"] false false)

/-- A page is synced, its copy deleted, and then restored. -/
def deleteAndRestore : List Event := firstSync ++ [deleting] ++ [restoring]

/-- The store before the deletion. -/
def undeleted : Store := runEvents rulebook firstSync (.inMemory supply)

/-- The store after it. -/
def deleted : Store := runEvents rulebook (firstSync ++ [deleting]) (.inMemory supply)

/-- The store after the copy was restored. -/
def restored : Store := runEvents rulebook deleteAndRestore (.inMemory supply)

/-- Neither edit is rejected, and the tag has the mark after both. -/
theorem run_deleteAndRestore :
    ((undeleted.stored.childTag? (copyTag []).content).toOption = some (some (copyTag [])) ∧
      (((Request.edit (copyTag []).content [] true false).run rulebook).run
        undeleted).1.toOption.map Report.rejected = some none) ∧
    ((deleted.stored.childTag? (copyTag []).content).toOption =
        some (some (copyTag [manuallyDeleted])) ∧
      (((Request.edit (copyTag []).content ["workflow_state=active"] false false).run rulebook).run
        deleted).1.toOption.map Report.rejected = some none) ∧
    (restored.stored.childTag? (copyTag []).content).toOption =
      some (some (copyTag [manuallyDeleted])) := by
  decide +kernel

theorem deletes_deleting : Event.Deletes rulebook (copyTag []).content undeleted deleting := by
  obtain ⟨⟨htag, hanswer⟩, -⟩ := run_deleteAndRestore
  exact ⟨_, .of_answer rfl (Result.toOption_eq_some.1 htag) hanswer, by decide +kernel⟩

/-- The copy stays recorded as deleted, since no sync has come after the deletion. -/
theorem recordsDeletion_restored : restored.stored.RecordsDeletion (copyTag []).content ∧
    NotSince rulebook (Event.SyncsState rulebook (copyTag []).content)
      (Event.Deletes rulebook (copyTag []).content) deleteAndRestore (.inMemory supply) := by
  have hmark : manuallyDeleted ∉ (rulebook.registry (copyTag []).content.kind).allColumns := by
    decide
  have hempty : (Store.inMemory supply).stored = .of .empty := rfl
  obtain ⟨hsince, hrecords⟩ :=
    mark_tells_deletion rulebook deleteAndRestore showsDates_supply hempty hmark
  have hrecorded := hrecords (notSince_concat.2
    (.inr ⟨?_, notSince_concat.2 (.inl deletes_deleting)⟩))
  · exact ⟨hrecorded, hsince hrecorded⟩
  · rintro (⟨_, _, _, hsync, -⟩ | ⟨_, _, _, hsync, -⟩)
    · cases hsync
    · cases hsync

/-- A deployment that governs a column called like the mark. -/
def governingMark : Rulebook :=
  { rulebook with registry := Registry.builtin.restrict .wikiPage .content [manuallyDeleted] }

/-- That column of the copy is given a value. -/
def editingMark : Event :=
  .request (.edit (copyTag []).content ["manually_deleted=x"] false false)

/-- The store before and the store after that. -/
theorem run_editingMark :
    ((runEvents governingMark firstSync (.inMemory supply)).stored.childTag?
      (copyTag []).content).toOption = some (some (copyTag [])) ∧
    ((runEvents governingMark (firstSync ++ [editingMark]) (.inMemory supply)).stored.childTag?
      (copyTag []).content).toOption = some (some (copyTag [manuallyDeleted])) := by
  decide +kernel

/-- A child that restores its copy does not take the mark away, and an edit of a governed column that is
called like the mark sets it though nothing is deleted. -/
theorem mark_outlives_restoring :
    (restored.stored.RecordsDeletion (copyTag []).content ∧
      ¬ NotSince rulebook (fun s e => Event.EditsState rulebook (copyTag []).content s e ∨
          Event.SyncsState rulebook (copyTag []).content s e)
        (Event.Deletes rulebook (copyTag []).content) deleteAndRestore (.inMemory supply)) ∧
    ((runEvents governingMark (firstSync ++ [editingMark])
        (.inMemory supply)).stored.RecordsDeletion (copyTag []).content ∧
      ¬ NotSince governingMark (Event.SyncsState governingMark (copyTag []).content)
        (Event.Deletes governingMark (copyTag []).content) (firstSync ++ [editingMark])
        (.inMemory supply)) := by
  obtain ⟨-, ⟨hdeleted, hanswer⟩, hrestored⟩ := run_deleteAndRestore
  obtain ⟨hbefore, hafter⟩ := run_editingMark
  have hactive : Assignment.ofTexts ["workflow_state=active"] =
      .ok [("workflow_state", Assignment.valueOf "active")] := rfl
  have hmark : Assignment.ofTexts ["manually_deleted=x"] =
      .ok [("manually_deleted", Assignment.valueOf "x")] := rfl
  refine ⟨⟨?_, ?_⟩, ?_, ?_⟩
  · exact (Stored.recordsDeletion_iff (Result.toOption_eq_some.1 hrestored)).2 (by decide)
  · -- the last write of the state is the edit that restores the copy
    rw [deleteAndRestore, notSince_concat]
    rintro (⟨i, hedit, hdeletes⟩ | ⟨hnot, -⟩)
    · rw [hedit.eq_editedItem hactive (Result.toOption_eq_some.1 hdeleted)] at hdeletes
      revert hdeletes
      decide +kernel
    · exact hnot (.inl ⟨_, .of_answer hactive (Result.toOption_eq_some.1 hdeleted) hanswer,
        by decide +kernel⟩)
  · exact (Stored.recordsDeletion_iff (Result.toOption_eq_some.1 hafter)).2 (by decide)
  · -- nothing has written the state
    rw [notSince_concat]
    rintro (⟨i, hedit, hdeletes⟩ | ⟨-, before, e, after, hevents, ⟨i, hedit, -⟩, -⟩)
    · rw [hedit.eq_editedItem hmark (Result.toOption_eq_some.1 hbefore)] at hdeletes
      revert hdeletes
      decide +kernel
    · have hmem : e ∈ firstSync := by simp [hevents]
      cases hedit
      simp [firstSync] at hmem

end Sample

end CourseBlueprint
