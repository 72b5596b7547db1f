import CourseBlueprint.Proofs.Store.Records

/-!
# When writing works

Whoever gets something written knows that writing works: a tag that was added, or the changes of one
that was worked on, came to a place that can be written and whose child tags can be read. Where that is
so, finding or creating a tag and working on one are always answered, and it stays so.
-/

namespace CourseBlueprint

namespace Directory

variable {α β : Type}

/-- A directory works if its lock file can be taken. -/
theorem works_of_run_takeLock {d d' : Directory} (h : takeLock.run d = (.ok (), d')) : d.Works := by
  obtain ⟨_, d₁, hmake, -⟩ := Action.run_bind_eq_ok.1 h
  have hlockable : ∀ entries, make.run d = (.ok (), present entries) →
      entries.get? lockFile ≠ some .folder := by
    intro entries hmade hfolder
    rw [run_takeLock_of_made hmade, hfolder] at h
    cases (Prod.mk.inj h).1
  rcases d with (_ | entries) | _ | entries
  · cases (Prod.mk.inj hmake).1
  · exact ⟨.inr ⟨entries, rfl⟩, hlockable entries rfl⟩
  · cases (Prod.mk.inj hmake).1
  · exact ⟨.inl rfl, hlockable entries rfl⟩

/-- A table that was revised is in a directory that works, and can be read. -/
theorem works_of_run_revise {table : Table α} (hfile : table.file ≠ lockFile)
    {f : List α → β × Option (List α)} {d d' : Directory} {a : β}
    (h : (revise table f).run d = (.ok a, d')) :
    d.Works ∧ ∃ rows, d.stored table = .ok rows := by
  obtain ⟨_, d₁, hlock, h⟩ := Action.run_bind_eq_ok.1 h
  obtain ⟨rows, d₂, hread, -⟩ := Action.run_bind_eq_ok.1 h
  obtain ⟨hsame, hpresent⟩ := sameTables_takeLock hlock
  rw [run_rows, read_eq_stored (hpresent (.inr rfl)), hsame α table hfile] at hread
  exact ⟨works_of_run_takeLock hlock, rows, (Prod.mk.inj hread).1⟩

end Directory

namespace Store

variable {α : Type} {s s' : Store} {rows : List ChildTag} {content : ContentKey}

/-! ## What was written -/

theorem not_writesFail_of_checkWritable {m m' : Memory} {u : Unit}
    (h : Memory.checkWritable.run m = (.ok u, m')) : m.writesFail = false := by
  rw [run_checkWritable] at h
  cases hfails : m.writesFail with
  | false => rfl
  | true =>
    rw [hfails] at h
    cases (Prod.mk.inj h).1

/-- A child tag is only added where writing works, to rows that can be read. -/
theorem works_of_insertChildTag {t tag : ChildTag} (h : (insertChildTag t).run s = (.ok tag, s')) :
    s.Works ∧ ∃ rows, s.stored.childTags = .ok rows := by
  obtain ⟨m | d, p⟩ := s
  · rw [insertChildTag, run_onPlace_memory] at h
    obtain ⟨_, m', hcheck, -⟩ := Action.run_bind_eq_ok.1 (Prod.ext (Prod.mk.inj h).1 rfl)
    exact ⟨not_writesFail_of_checkWritable hcheck, m.tables.childTags, rfl⟩
  · rw [insertChildTag, run_onPlace_directory, Directory.insertChildTag, insertUnless_eq_revise] at h
    exact Directory.works_of_run_revise Directory.childTagTable_sound.not_lockFile
      (Prod.ext (Prod.mk.inj h).1 rfl)

/-- A child tag that is held is only changed where writing works. -/
theorem works_of_updateChildTag {update : ChildTag → α × Option ChildTag} {a : Option α}
    {tag tag' : ChildTag} (htag : s.stored.childTag? content = .ok (some tag))
    (hnew : (update tag).2 = some tag') (h : (updateChildTag content update).run s = (.ok a, s')) :
    s.Works := by
  rw [updateChildTag, Action.run_bind_ok (run_now s)] at h
  obtain ⟨m | d, p⟩ := s
  · have hfind : m.tables.childTags.find? (fun t => t.content = content) = some tag :=
      Except.ok.inj htag
    rw [afterTime, run_onPlace_memory, Memory.updateChildTag,
      Action.run_bind_ok (rfl : (Memory.childTag? _).run _ = _)] at h
    simp only [hfind, hnew, Option.map_some] at h
    obtain ⟨_, m', hcheck, -⟩ := Action.run_bind_eq_ok.1 (Prod.ext (Prod.mk.inj h).1 rfl)
    exact not_writesFail_of_checkWritable hcheck
  · rw [afterTime, run_onPlace_directory, updateChildTag_eq_revise] at h
    exact (Directory.works_of_run_revise Directory.childTagTable_sound.not_lockFile
      (Prod.ext (Prod.mk.inj h).1 rfl)).1

/-- A tag that is found or created was seen, and nothing has happened, or writing works and the child
tags can be read. -/
theorem seen_or_works_of_findOrCreateChildTag {subscription : Uuid} {migrationId : Option String}
    {tag : ChildTag}
    (h : (findOrCreateChildTag subscription content migrationId).run s = (.ok tag, s')) :
    (s' = s ∧ s.seen.childTag? content = .ok (some tag)) ∨
      s.Works ∧ ∃ rows, s.stored.childTags = .ok rows := by
  rw [findOrCreateChildTag, Action.run_bind, run_childTag?] at h
  rcases hseen : s.seen.childTag? content with e | _ | found
  · rw [hseen] at h
    cases (Prod.mk.inj h).1
  · rw [hseen] at h
    simp only [Action.run_bind_ok (run_newId s), Action.run_bind_ok (run_now s.afterId)] at h
    have hinserted := works_of_insertChildTag h
    exact .inr hinserted
  · rw [hseen] at h
    obtain ⟨hfound, rfl⟩ := Prod.mk.inj h
    rw [Except.ok.inj hfound]
    exact .inl ⟨rfl, rfl⟩

/-- Forgetting a change of a tag that is held takes a place where writing works. -/
theorem works_of_removeChanges {columns : NameSet} {tag : ChildTag} {removed : Bool}
    (htag : s.stored.childTag? content = .ok (some tag)) {column : String}
    (hcolumn : column ∈ columns) (hchanges : column ∈ tag.changes)
    (h : (removeChanges content columns).run s = (.ok removed, s')) : s.Works := by
  obtain ⟨removed?, s₁, hupdate, -⟩ := Action.run_bind_eq_ok.1 h
  have hleft : tag.changes \ columns ≠ tag.changes := by
    intro heq
    rw [← heq] at hchanges
    exact (NameSet.mem_diff.1 hchanges).2 hcolumn
  have hnew : (removal columns tag).2 = some { tag with changes := tag.changes \ columns } := by
    simp only [removal, hleft, if_false]
  exact works_of_updateChildTag htag hnew hupdate

/-! ## What can be written -/

/-- Where writing works and the child tags can be read, the tag of a piece of content is found or
created, and writing works. -/
theorem findOrCreateChildTag_answers (hclock : s.supply.ShowsDates) (hworks : s.Works)
    (hrows : s.stored.childTags = .ok rows) (subscription : Uuid) (content : ContentKey)
    (migrationId : Option String) :
    ∃ tag s', (findOrCreateChildTag subscription content migrationId).run s = (.ok tag, s') ∧
      s'.Works := by
  rw [findOrCreateChildTag, Action.run_bind, run_childTag?]
  rcases hseen : s.seen.childTag? content with e | _ | found
  · -- what is seen is what is held, or nothing
    unfold seen at hseen
    split at hseen
    · rw [childTag?_of_rows hrows] at hseen
      cases hseen
    · cases hseen
  · simp only [Action.run_bind_ok (run_newId s), Action.run_bind_ok (run_now s.afterId)]
    rcases hinsert : (insertChildTag ⟨_, subscription, content, migrationId, ∅, _, _⟩).run
      s.afterId.afterTime with ⟨r, s'⟩
    have htime : (s.afterId.supply.times s.afterId.supply.timesUsed).IsDate := hclock _
    obtain ⟨hworks', hfails⟩ := (insertChildTag_performed ⟨htime, htime⟩ hinsert).works hworks
    cases r with
    | error e =>
      have hunread : Except.map _ s.stored.childTags = .error e := hfails e rfl
      rw [hrows] at hunread
      cases hunread
    | ok tag => exact ⟨tag, s', rfl, hworks'⟩
  · exact ⟨found, s, rfl, hworks⟩

/-- Where writing works and the child tags can be read, work on a tag that changes nothing but its
changes is answered, and writing works. -/
theorem updateChildTag_answers {update : ChildTag → α × Option ChildTag}
    (hupdate : RevisesChanges update) (hclock : s.supply.ShowsDates) (hworks : s.Works)
    (hrows : s.stored.childTags = .ok rows) (content : ContentKey) :
    ∃ a s', (updateChildTag content update).run s = (.ok a, s') ∧ s'.Works := by
  rcases hrun : (updateChildTag content update).run s with ⟨r, s'⟩
  rw [updateChildTag, Action.run_bind_ok (run_now s)] at hrun
  have hperformed := updateChildTag_performed (hupdate.isDated_stamped (hclock _)) hrun
  obtain ⟨hworks', hfails⟩ := hperformed.works hworks
  cases r with
  | error e =>
    have hunread : Except.map _ s.stored.childTags = .error e := hfails e rfl
    rw [hrows] at hunread
    cases hunread
  | ok a => exact ⟨a, s', rfl, hworks'⟩

theorem removeChanges_answers (hclock : s.supply.ShowsDates) (hworks : s.Works)
    (hrows : s.stored.childTags = .ok rows) (content : ContentKey) (columns : NameSet) :
    ∃ removed s', (removeChanges content columns).run s = (.ok removed, s') ∧ s'.Works := by
  obtain ⟨removed?, s', hrun, hworks'⟩ :=
    updateChildTag_answers (revisesChanges_removal columns) hclock hworks hrows content
  exact ⟨_, s', Action.run_bind_ok hrun, hworks'⟩

theorem mergeChanges_answers (hclock : s.supply.ShowsDates) (hworks : s.Works)
    (hrows : s.stored.childTags = .ok rows) (content : ContentKey) (columns : NameSet) :
    ∃ answer s', (mergeChanges content columns).run s = (.ok answer, s') ∧ s'.Works := by
  obtain ⟨added?, s', hrun, hworks'⟩ :=
    updateChildTag_answers (revisesChanges_merging columns) hclock hworks hrows content
  rw [mergeChanges_eq, Action.run_bind_ok hrun]
  exact ⟨_, s', rfl, hworks'⟩

end Store

end CourseBlueprint
