import CourseBlueprint.Proofs.Store.Soundness
import CourseBlueprint.Proofs.Store.Writable

/-!
# Merges in any order

Columns are recorded on tags by merges, one after the other. What each of them does depends on what is
recorded at its moment (`Store.Merges`), and so do the answers; what is recorded in the end does not
depend on the order. The sets that came in all land, and the answers share out what is new
(`Merge.Landed`, `Store.merges_land`).
-/

namespace CourseBlueprint

/-- Columns to record on the tag of a piece of content. -/
structure MergeCall where
  content : ContentKey
  columns : NameSet

namespace MergeCall

/-- The sets that come in for a piece of content, in turn. -/
def columnsFor (content : ContentKey) (calls : List MergeCall) : List NameSet :=
  (calls.filter fun call => call.content = content).map columns

/-- What is answered to the calls for a piece of content, in turn. -/
def answersFor (content : ContentKey) (calls : List MergeCall) (answers : List Merge) : List Merge :=
  ((calls.zip answers).filter fun p => p.1.content = content).map Prod.snd

variable {content : ContentKey} {call : MergeCall} {calls : List MergeCall} {answer : Merge}
  {answers : List Merge}

theorem columnsFor_cons_of_eq (h : call.content = content) :
    columnsFor content (call :: calls) = call.columns :: columnsFor content calls := by
  rw [columnsFor, List.filter_cons_of_pos (by simpa using h), List.map_cons, columnsFor]

theorem columnsFor_cons_of_ne (h : call.content ≠ content) :
    columnsFor content (call :: calls) = columnsFor content calls := by
  rw [columnsFor, List.filter_cons_of_neg (by simpa using h), columnsFor]

theorem answersFor_cons_of_eq (h : call.content = content) :
    answersFor content (call :: calls) (answer :: answers) =
      answer :: answersFor content calls answers := by
  rw [answersFor, List.zip_cons_cons, List.filter_cons_of_pos (by simpa using h), List.map_cons,
    answersFor]

theorem answersFor_cons_of_ne (h : call.content ≠ content) :
    answersFor content (call :: calls) (answer :: answers) = answersFor content calls answers := by
  rw [answersFor, List.zip_cons_cons, List.filter_cons_of_neg (by simpa using h), answersFor]

end MergeCall

theorem NameSet.exists_mem_of_isEmpty_eq_false {s : NameSet} (h : s.isEmpty = false) :
    ∃ x, x ∈ s := by
  simpa using mt isEmpty_iff.2 (Bool.eq_false_iff.1 h)

/-! ## Sets that come in one after the other -/

namespace Merge

/-- Whether a column was recorded that had not been. -/
def Grows (m : Merge) (column : String) : Prop := ∃ added, m = .grew added ∧ column ∈ added

/-- How sets are merged into one, in any order: they are all in it in the end, and each column that is
new is in one answer. -/
structure Landed (old : NameSet) (sets : List NameSet) (answers : List Merge) (new : NameSet) :
    Prop where
  mem_iff : ∀ column, column ∈ new ↔ column ∈ old ∨ ∃ set ∈ sets, column ∈ set
  grows_iff : ∀ column, (∃ m ∈ answers, m.Grows column) ↔ column ∈ new ∧ column ∉ old
  apart : answers.Pairwise fun m m' => ∀ column, m.Grows column → ¬ m'.Grows column
  answered : ∀ m ∈ answers, m ≠ .missing

variable {old new columns : NameSet} {sets sets' : List NameSet} {m : Merge} {answers : List Merge}

theorem Landed.nil (old : NameSet) : Landed old [] [] old where
  mem_iff column := by simp
  grows_iff column := by simp
  apart := .nil
  answered := nofun

/-- The set that comes in first takes what is new of it from all others. -/
theorem Landed.cons (hm : ∀ column, m.Grows column ↔ column ∈ columns ∧ column ∉ old)
    (hanswered : m ≠ .missing) (h : Landed (old ∪ columns) sets answers new) :
    Landed old (columns :: sets) (m :: answers) new where
  mem_iff column := by
    simp only [h.mem_iff, NameSet.mem_union, List.mem_cons, exists_eq_or_imp, or_assoc]
  grows_iff column := by
    have hnew : column ∈ columns → column ∈ new :=
      fun hcolumn => (h.mem_iff column).2 (.inl (NameSet.mem_union.2 (.inr hcolumn)))
    simp only [List.mem_cons, exists_eq_or_imp, hm, h.grows_iff, NameSet.mem_union]
    by_cases hcolumn : column ∈ columns
    · simp [hcolumn, hnew hcolumn]
    · simp [hcolumn]
  apart := by
    refine List.pairwise_cons.2 ⟨fun m' hm' column hgrows hgrows' => ?_, h.apart⟩
    have hlater := (h.grows_iff column).1 ⟨m', hm', hgrows'⟩
    exact hlater.2 (NameSet.mem_union.2 (.inr ((hm column).1 hgrows).1))
  answered := List.forall_mem_cons.2 ⟨hanswered, h.answered⟩

theorem Landed.of_perm (h : Landed old sets answers new) (hperm : sets'.Perm sets) :
    Landed old sets' answers new where
  mem_iff column := by simp only [h.mem_iff, hperm.mem_iff]
  grows_iff := h.grows_iff
  apart := h.apart
  answered := h.answered

end Merge

namespace Store

variable {α : Type} {s s₁ s' : Store} {rows : List ChildTag} {content : ContentKey}

/-! ## One merge -/

/-- Work on a child tag that gives no tag back leaves everything as it was kept. -/
theorem holdings_of_updateChildTag {update : ChildTag → α × Option ChildTag} {r : Result (Option α)}
    (hrows : s.stored.childTags = .ok rows)
    (hnone : ∀ tag, Tables.childTagIn rows content = some tag → (update tag).2 = none)
    (h : (updateChildTag content update).run s = (r, s')) : s'.holdings = s.holdings := by
  have hkept : ∀ stamped : ChildTag → α × Option ChildTag,
      (∀ tag, (update tag).2 = none → (stamped tag).2 = none) →
      (Tables.updateChildTag content stamped rows).2 = none := by
    intro stamped hstamped
    unfold Tables.updateChildTag
    cases hfind : rows.find? fun t => t.content = content with
    | none => rfl
    | some tag =>
      simp only
      rw [hstamped tag (hnone tag hfind), Option.map_none]
  rw [updateChildTag, Action.run_bind_ok (run_now s)] at h
  obtain ⟨m | d, p⟩ := s
  · obtain rfl := Except.ok.inj hrows
    rw [afterTime, run_onPlace_memory] at h
    obtain ⟨-, rfl⟩ := Prod.mk.inj h
    rw [Memory.updateChildTag, Action.run_bind_ok (rfl : (Memory.childTag? _).run m = _)]
    cases hfind : m.tables.childTags.find? fun t => t.content = content with
    | none => rfl
    | some tag =>
      simp only [hnone tag hfind, Option.map_none]
      rfl
  · rw [afterTime, run_onPlace_directory, updateChildTag_eq_revise] at h
    obtain ⟨-, rfl⟩ := Prod.mk.inj h
    rcases Directory.files_of_revise Directory.childTagTable_sound.not_lockFile
      (Prod.eta (Action.run _ d)).symm with hsame | ⟨-, rows', new, hrows', hnew, -⟩
    · exact holdings_of_sameFiles _ hsame
    · obtain rfl : rows' = rows := Except.ok.inj (hrows'.symm.trans hrows)
      rw [hkept _ fun tag htag => by simp only [htag, Option.map_none]] at hnew
      cases hnew

/-- What a merge answers and leaves, by what is recorded at its moment. -/
structure Merges (s : Store) (call : MergeCall) (answer : Merge) (s' : Store) : Prop where
  run : (mergeChanges call.content call.columns).run s = (.ok answer, s')
  missing_iff : answer = .missing ↔ s.stored.childTag? call.content = .ok none
  unchanged_iff : answer = .unchanged ↔ ∃ tag, s.stored.childTag? call.content = .ok (some tag) ∧
    ∀ column ∈ call.columns, column ∈ tag.changes
  grew_iff_written : (∃ added, answer = .grew added) ↔ s'.holdings ≠ s.holdings
  grew : ∀ added, answer = .grew added → ∃ tag,
    s.stored.childTag? call.content = .ok (some tag) ∧ added = call.columns \ tag.changes ∧
      s.stored.SetsChanges tag (tag.changes ∪ added) s'.stored

/-- A merge that brings nothing new leaves everything as it was kept. -/
theorem holdings_of_mergeChanges {columns : NameSet} {answer : Merge}
    (hrows : s.stored.childTags = .ok rows)
    (hold : ∀ tag, Tables.childTagIn rows content = some tag →
      (columns \ tag.changes).isEmpty = true)
    (h : (mergeChanges content columns).run s = (.ok answer, s')) : s'.holdings = s.holdings := by
  rw [mergeChanges_eq, Action.run_bind_eq_ok] at h
  obtain ⟨added?, s₁, hrun, hanswer⟩ := h
  obtain ⟨-, rfl⟩ := Action.run_pure_eq_ok.1 hanswer
  refine holdings_of_updateChildTag hrows (fun tag htag => ?_) hrun
  simp only [merging, hold tag htag, if_true]

/-- A tag with more changes is kept in another way. -/
theorem holdings_ne_of_setsChanges {tag : ChildTag} {changes : NameSet}
    (htag : s.stored.childTag? tag.content = .ok (some tag)) (hne : changes ≠ tag.changes)
    (h : s.stored.SetsChanges tag changes s'.stored) : s'.holdings ≠ s.holdings := by
  intro hkept
  obtain ⟨⟨tag', htag', hchanges⟩, -⟩ := childTag?_of_setsChanges h
  rw [stored_eq_of_holdings_eq hkept, htag] at htag'
  obtain rfl := Option.some.inj (Except.ok.inj htag')
  exact hne hchanges.symm

theorem merges_of_run (hclock : s.supply.ShowsDates) (hrows : s.stored.childTags = .ok rows)
    {call : MergeCall} {answer : Merge}
    (hrun : (mergeChanges call.content call.columns).run s = (.ok answer, s')) :
    s.Merges call answer s' := by
  have hheld := childTag?_of_rows hrows call.content
  obtain ⟨-, -, ⟨e, he, -⟩ | ⟨-, ⟨hanswer, hnone, -⟩ | ⟨tag, htag, hends⟩⟩⟩ :=
    mergeChanges_spec hclock hrun
  · cases he
  · -- there is no tag
    obtain rfl := Except.ok.inj hanswer
    have hkept : s'.holdings = s.holdings := by
      refine holdings_of_mergeChanges hrows (fun tag htag => ?_) hrun
      rw [hheld, htag] at hnone
      cases hnone
    exact ⟨hrun, by simp [hnone], by simp [hnone], by simp [hkept], nofun⟩
  · have hkept : (call.columns \ tag.changes).isEmpty = true → s'.holdings = s.holdings := by
      intro hold
      refine holdings_of_mergeChanges hrows (fun tag' htag' => ?_) hrun
      rw [hheld, htag'] at htag
      rwa [Option.some.inj (Except.ok.inj htag)]
    rcases hends with ⟨hanswer, hold, -⟩ | ⟨hanswer, hnew, hsets⟩
    · -- nothing is new
      obtain rfl := Except.ok.inj hanswer
      have hincluded : ∀ column ∈ call.columns, column ∈ tag.changes := by
        simpa using hold
      exact ⟨hrun, by simp [htag], by simpa [htag] using hincluded, by simp [hkept hold], nofun⟩
    · -- something is new
      obtain rfl := Except.ok.inj hanswer
      obtain ⟨column, hadded⟩ := NameSet.exists_mem_of_isEmpty_eq_false hnew
      obtain ⟨hcolumn, hlacks⟩ := NameSet.mem_diff.1 hadded
      have hmore : tag.changes ∪ (call.columns \ tag.changes) ≠ tag.changes := fun heq =>
        hlacks (heq ▸ NameSet.mem_union.2 (.inr hadded))
      have hcontent := content_of_childTag? htag
      have hwritten : s'.holdings ≠ s.holdings :=
        holdings_ne_of_setsChanges (by rw [hcontent, htag]) hmore hsets
      refine ⟨hrun, by simp [htag], ?_, by simp [hwritten], ?_⟩
      · refine ⟨nofun, ?_⟩
        rintro ⟨tag', htag', hincluded⟩
        rw [htag] at htag'
        obtain rfl := Option.some.inj (Except.ok.inj htag')
        exact absurd (hincluded column hcolumn) hlacks
      · rintro added hadded
        obtain rfl := Merge.grew.inj hadded
        exact ⟨tag, htag, rfl, hsets⟩

/-- A merge that records nothing leaves all rows as they were. -/
theorem Merges.stored_eq {call : MergeCall} {answer : Merge} (h : s.Merges call answer s')
    (hnothing : ¬ ∃ added, answer = .grew added) : s'.stored = s.stored :=
  stored_eq_of_holdings_eq (Decidable.not_not.1 (mt h.grew_iff_written.2 hnothing))

/-- A merge adds no row and takes none away, and leaves the other tables. -/
theorem Merges.same_contents {call : MergeCall} {answer : Merge} (h : s.Merges call answer s')
    (hrows : s.stored.childTags = .ok rows) : ∃ rows', s'.stored = s.stored.withChildTags rows' ∧
      rows'.map ChildTag.content = rows.map ChildTag.content := by
  by_cases hgrew : ∃ added, answer = .grew added
  · obtain ⟨added, hadded⟩ := hgrew
    obtain ⟨tag, -, -, rows₀, time, hrows₀, htag, hstored⟩ := h.grew added hadded
    obtain rfl := Except.ok.inj (hrows.symm.trans hrows₀)
    exact ⟨_, hstored, Tables.map_replaceFirst htag rfl⟩
  · exact ⟨rows, (h.stored_eq hgrew).trans (Stored.withChildTags_of_rows hrows).symm, rfl⟩

/-- Where writing works and the child tags can be read, a merge is answered as its moment says, and
the same holds of the store it leaves. -/
theorem exists_merges (hclock : s.supply.ShowsDates) (hworks : s.Works)
    (hrows : s.stored.childTags = .ok rows) (call : MergeCall) :
    ∃ answer s', s.Merges call answer s' ∧ s'.supply.ShowsDates ∧ s'.Works ∧
      ∃ rows', s'.stored = s.stored.withChildTags rows' ∧
        rows'.map ChildTag.content = rows.map ChildTag.content := by
  obtain ⟨answer, s', hrun, hworks'⟩ :=
    mergeChanges_answers hclock hworks hrows call.content call.columns
  have hmerges := merges_of_run hclock hrows hrun
  obtain ⟨hlater, -, -⟩ := mergeChanges_spec hclock hrun
  exact ⟨answer, s', hmerges, hlater.showsDates hclock, hworks', hmerges.same_contents hrows⟩

/-- A merge that grew has recorded something. -/
theorem Merges.exists_added {call : MergeCall} {added : NameSet}
    (h : s.Merges call (.grew added) s') : ∃ column, column ∈ added := by
  obtain ⟨tag, htag, rfl, -⟩ := h.grew added rfl
  refine NameSet.exists_mem_of_isEmpty_eq_false (Bool.eq_false_iff.2 fun hempty => ?_)
  have hunchanged := h.unchanged_iff.2 ⟨tag, htag, by simpa using hempty⟩
  cases hunchanged

/-- The tag that was there for the content of a merge, and what is recorded on it after the merge. -/
theorem Merges.of_held {call : MergeCall} {answer : Merge} {tag : ChildTag}
    (h : s.Merges call answer s') (htag : s.stored.childTag? call.content = .ok (some tag)) :
    answer ≠ .missing ∧
      (∀ column, answer.Grows column ↔ column ∈ call.columns ∧ column ∉ tag.changes) ∧
      ∃ tag', s'.stored.childTag? call.content = .ok (some tag') ∧
        tag'.changes = tag.changes ∪ call.columns := by
  have hanswered : answer ≠ .missing := fun hmissing => by
    rw [h.missing_iff, htag] at hmissing
    cases hmissing
  refine ⟨hanswered, ?_⟩
  cases answer with
  | missing => exact absurd rfl hanswered
  | unchanged =>
    obtain ⟨tag₀, htag₀, hincluded⟩ := h.unchanged_iff.1 rfl
    rw [htag] at htag₀
    obtain rfl := Option.some.inj (Except.ok.inj htag₀)
    refine ⟨fun column => ?_, tag, by rw [h.stored_eq nofun, htag], ?_⟩
    · constructor
      · rintro ⟨added, hadded, -⟩
        cases hadded
      · rintro ⟨hcolumn, hlacks⟩
        exact absurd (hincluded column hcolumn) hlacks
    · refine NameSet.eq_of_mem_iff fun column => ?_
      rw [NameSet.mem_union, or_iff_left_of_imp (hincluded column)]
  | grew added =>
    obtain ⟨tag₀, htag₀, rfl, hsets⟩ := h.grew added rfl
    rw [htag] at htag₀
    obtain rfl := Option.some.inj (Except.ok.inj htag₀)
    rw [← content_of_childTag? htag]
    obtain ⟨⟨tag', htag', hchanges⟩, -⟩ := childTag?_of_setsChanges hsets
    refine ⟨fun column => ?_, tag', htag', ?_⟩
    · simp [Merge.Grows, eq_comm]
    · refine hchanges.trans (NameSet.eq_of_mem_iff fun column => ?_)
      by_cases hheld : column ∈ tag.changes
      · simp [hheld]
      · simp [hheld]

/-- A merge on one tag leaves what is held for every other content. -/
theorem Merges.childTag?_of_ne {call : MergeCall} {answer : Merge} (h : s.Merges call answer s')
    (hne : call.content ≠ content) : s'.stored.childTag? content = s.stored.childTag? content := by
  by_cases hgrew : ∃ added, answer = .grew added
  · obtain ⟨added, hadded⟩ := hgrew
    obtain ⟨tag, htag, -, hsets⟩ := h.grew added hadded
    rw [← content_of_childTag? htag] at hne
    exact (childTag?_of_setsChanges hsets).2 content hne.symm
  · rw [h.stored_eq hgrew]

/-- A content without a tag has none after a merge. -/
theorem Merges.childTag?_of_none {call : MergeCall} {answer : Merge} (h : s.Merges call answer s')
    (hnone : s.stored.childTag? content = .ok none) : s'.stored.childTag? content = .ok none := by
  by_cases heq : call.content = content
  · subst heq
    have hmissing := h.missing_iff.2 hnone
    rw [h.stored_eq (by simp [hmissing]), hnone]
  · rw [h.childTag?_of_ne heq, hnone]

/-! ## Merges in turn -/

/-- Calls that are answered one after the other, each at its moment. -/
inductive MergesInTurn : Store → List MergeCall → List Merge → Store → Prop where
  | nil {s : Store} : MergesInTurn s [] [] s
  | cons {s s₁ s' : Store} {call : MergeCall} {calls : List MergeCall} {answer : Merge}
      {answers : List Merge} : s.Merges call answer s₁ → MergesInTurn s₁ calls answers s' →
      MergesInTurn s (call :: calls) (answer :: answers) s'

variable {calls : List MergeCall} {answers : List Merge}

/-- Merges on a tag land on it, whatever comes in between for other contents. -/
theorem MergesInTurn.landed (h : s.MergesInTurn calls answers s') {tag : ChildTag}
    (htag : s.stored.childTag? content = .ok (some tag)) :
    ∃ tag', s'.stored.childTag? content = .ok (some tag') ∧
      Merge.Landed tag.changes (MergeCall.columnsFor content calls)
        (MergeCall.answersFor content calls answers) tag'.changes := by
  induction h generalizing tag with
  | nil => exact ⟨tag, htag, .nil _⟩
  | @cons s s₁ s' call calls answer answers hmerges _ ih =>
    by_cases heq : call.content = content
    · subst heq
      obtain ⟨hanswered, hgrows, tag₁, htag₁, hchanges⟩ := hmerges.of_held htag
      obtain ⟨tag', htag', hlanded⟩ := ih htag₁
      rw [hchanges] at hlanded
      rw [MergeCall.columnsFor_cons_of_eq rfl, MergeCall.answersFor_cons_of_eq rfl]
      exact ⟨tag', htag', .cons hgrows hanswered hlanded⟩
    · rw [MergeCall.columnsFor_cons_of_ne heq, MergeCall.answersFor_cons_of_ne heq]
      exact ih ((hmerges.childTag?_of_ne heq).trans htag)

/-- Merges for a content without a tag find none. -/
theorem MergesInTurn.missing (h : s.MergesInTurn calls answers s')
    (hnone : s.stored.childTag? content = .ok none) :
    s'.stored.childTag? content = .ok none ∧
      ∀ answer ∈ MergeCall.answersFor content calls answers, answer = .missing := by
  induction h with
  | nil => exact ⟨hnone, nofun⟩
  | @cons s s₁ s' call calls answer answers hmerges _ ih =>
    obtain ⟨hnone', hmissing⟩ := ih (hmerges.childTag?_of_none hnone)
    refine ⟨hnone', ?_⟩
    by_cases heq : call.content = content
    · subst heq
      rw [MergeCall.answersFor_cons_of_eq rfl]
      exact List.forall_mem_cons.2 ⟨hmerges.missing_iff.2 hnone, hmissing⟩
    · rwa [MergeCall.answersFor_cons_of_ne heq]

/-- Where writing works and the child tags can be read, all calls are answered, and no row comes or
goes. -/
theorem exists_mergesInTurn (hclock : s.supply.ShowsDates) (hworks : s.Works)
    (hrows : s.stored.childTags = .ok rows) (calls : List MergeCall) :
    ∃ answers s' rows',
      (calls.mapM fun call => mergeChanges call.content call.columns).run s = (.ok answers, s') ∧
      s.MergesInTurn calls answers s' ∧ s'.stored = s.stored.withChildTags rows' ∧
      rows'.map ChildTag.content = rows.map ChildTag.content := by
  induction calls generalizing s rows with
  | nil =>
    refine ⟨[], s, rows, ?_, .nil, (Stored.withChildTags_of_rows hrows).symm, rfl⟩
    rw [List.mapM_nil, Action.run_pure]
  | cons call calls ih =>
    obtain ⟨answer, s₁, hmerges, hclock₁, hworks₁, rows₁, hstored₁, hcontents₁⟩ :=
      exists_merges hclock hworks hrows call
    obtain ⟨answers, s', rows', hrun, hturn, hstored, hcontents⟩ :=
      ih hclock₁ hworks₁ (congrArg Stored.childTags hstored₁)
    refine ⟨answer :: answers, s', rows', ?_, .cons hmerges hturn, ?_, hcontents.trans hcontents₁⟩
    · exact Action.run_mapM_cons_eq_ok.2 ⟨_, s₁, _, hmerges.run, hrun, rfl⟩
    · rw [hstored, hstored₁]
      rfl

/-- Merges land whatever their order: in a store of either sort where writing works, a tag has in the
end what it had and all sets that came in for its content, in whichever order and with whatever in
between; the answers share out what is new. A content without a tag is answered so every time, and no
row comes or goes. -/
theorem merges_land (hclock : s.supply.ShowsDates) (hworks : s.Works)
    (hrows : s.stored.childTags = .ok rows) (calls : List MergeCall) :
    ∃ answers s' rows',
      (calls.mapM fun call => mergeChanges call.content call.columns).run s = (.ok answers, s') ∧
      s.MergesInTurn calls answers s' ∧ s'.stored = s.stored.withChildTags rows' ∧
      rows'.map ChildTag.content = rows.map ChildTag.content ∧
      ∀ content,
        (∀ tag sets, Tables.childTagIn rows content = some tag →
          sets.Perm (MergeCall.columnsFor content calls) →
          ∃ tag', Tables.childTagIn rows' content = some tag' ∧
            Merge.Landed tag.changes sets (MergeCall.answersFor content calls answers)
              tag'.changes) ∧
        (Tables.childTagIn rows content = none →
          Tables.childTagIn rows' content = none ∧
            ∀ answer ∈ MergeCall.answersFor content calls answers, answer = .missing) := by
  obtain ⟨answers, s', rows', hrun, hturn, hstored, hcontents⟩ :=
    exists_mergesInTurn hclock hworks hrows calls
  have hbefore := childTag?_of_rows hrows
  have hafter : ∀ content, s'.stored.childTag? content = .ok (Tables.childTagIn rows' content) :=
    fun content => by rw [hstored, childTag?_withChildTags]
  refine ⟨answers, s', rows', hrun, hturn, hstored, hcontents, fun content => ⟨?_, ?_⟩⟩
  · intro tag sets htag hperm
    obtain ⟨tag', htag', hlanded⟩ := hturn.landed ((hbefore content).trans (congrArg _ htag))
    exact ⟨tag', Except.ok.inj ((hafter content).symm.trans htag'), hlanded.of_perm hperm⟩
  · intro hnone
    obtain ⟨hnone', hmissing⟩ := hturn.missing ((hbefore content).trans (congrArg _ hnone))
    exact ⟨Except.ok.inj ((hafter content).symm.trans hnone'), hmissing⟩

end Store

/-! ## Merges on a page -/

namespace Sample

/-- The tag of a page with its title recorded. -/
def titled : ChildTag := ⟨⟨5⟩, ⟨2⟩, ⟨.wikiPage, ⟨1⟩⟩, none, .ofList ["title"], .epoch, .epoch⟩

/-- A store in memory with the tag of a page. -/
def titledStore : Store :=
  ⟨.memory { Memory.empty with tables := { Tables.empty with childTags := [titled] } }, supply⟩

/-- Three calls for the page, with one in between for another page, which has no tag. -/
def pageMerges : List MergeCall :=
  [⟨⟨.wikiPage, ⟨1⟩⟩, .ofList ["body", "title"]⟩, ⟨⟨.wikiPage, ⟨2⟩⟩, .ofList ["body"]⟩,
    ⟨⟨.wikiPage, ⟨1⟩⟩, .ofList ["body"]⟩, ⟨⟨.wikiPage, ⟨1⟩⟩, .ofList ["url"]⟩]

/-- A body and an address are recorded beside the title, in whichever order they come in. -/
theorem merges_land_titled :
    supply.ShowsDates ∧ titledStore.Works ∧ titledStore.stored.childTags = .ok [titled] ∧
    ∃ answers s' rows',
      (pageMerges.mapM fun call => Store.mergeChanges call.content call.columns).run titledStore =
        (.ok answers, s') ∧
      ∃ tag', Tables.childTagIn rows' titled.content = some tag' ∧
        Merge.Landed titled.changes [.ofList ["url"], .ofList ["body", "title"], .ofList ["body"]]
          (MergeCall.answersFor titled.content pageMerges answers) tag'.changes := by
  refine ⟨showsDates_supply, rfl, rfl, ?_⟩
  obtain ⟨answers, s', rows', hrun, -, -, -, hlands⟩ :=
    Store.merges_land (s := titledStore) showsDates_supply rfl rfl pageMerges
  refine ⟨answers, s', rows', hrun, (hlands titled.content).1 titled _ rfl ?_⟩
  decide

end Sample

end CourseBlueprint
