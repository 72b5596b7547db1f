import CourseBlueprint.Proofs.Command.DeletionFlag
import CourseBlueprint.Proofs.Command.LockHistory

/-!
# What becomes of what an edit writes

A user's edit of a copy may write a column several times, and the last value counts. If it is not null, a
governed column is recorded by an edit that is accepted, and named by one that is rejected exactly if a
category of the column is locked. While one is, no edit of the column is accepted (`edit_accounts`). A
rejected edit records nothing, and so what it writes to columns that are not locked is neither named nor
recorded.
-/

namespace CourseBlueprint

namespace Command

variable {b : Rulebook} {s s' : Store} {tag : ChildTag} {changes : Changes} {answer : Report}
  {column : String} {v : Json}

/-! ## The item of an edit -/

/-- What an edit writes, in order: what is assigned, and then the state of deleted content if the copy
is deleted. -/
def Changes.writes (k : Kind) (changes : Changes) : List Assignment :=
  changes.assignments ++
    if changes.delete then [(k.stateColumn, .string Item.deletedState)] else []

/-- What stands for a written column among the recorded changes: to write the state of deleted content
is to delete the copy. -/
def recordedAs (k : Kind) (column : String) (v : Json) : String :=
  if column = k.stateColumn ∧ v.isText Item.deletedState = true then manuallyDeleted else column

theorem editedItem_eq_setAll (tag : ChildTag) (changes : Changes) :
    editedItem tag changes = (copyItem tag ∅).setAll (changes.writes tag.content.kind) := by
  obtain ⟨attributes, pending, hitem⟩ :=
    Item.setAll_frame changes.assignments (copyItem tag ∅)
  have hstate : ((copyItem tag ∅).setAll changes.assignments).stateColumn =
      tag.content.kind.stateColumn := by
    rw [hitem]
    rfl
  unfold editedItem Changes.writes
  cases changes.delete with
  | false => simp
  | true =>
    simp only [if_true, Item.markDeleted, hstate]
    rw [Item.setAll, Item.setAll, List.foldl_append]
    rfl

/-- A column is pending exactly if its last value is not null: the copy has no value to begin with. -/
theorem pending_editedItem_iff :
    (∃ change, (editedItem tag changes).pending.get? column = some change) ↔
      ∃ v, Item.lastAssigned column (changes.writes tag.content.kind) = some v ∧ v ≠ .null := by
  have hvalue : (copyItem tag ∅).value column = .null := rfl
  rw [← Option.isSome_iff_exists, editedItem_eq_setAll, Item.isSome_pending_setAll rfl, hvalue,
    Json.null_same_eq_false]
  cases Item.lastAssigned column (changes.writes tag.content.kind) with
  | none => simp
  | some v => simp

/-- The pending change is to the last value, as values are compared. -/
theorem new_same_lastAssigned {change : Change}
    (hchange : (editedItem tag changes).pending.get? column = some change)
    (hlast : Item.lastAssigned column (changes.writes tag.content.kind) = some v) :
    change.new.same v = true := by
  rw [editedItem_eq_setAll] at hchange
  have hclean : (copyItem tag ∅).pending = ∅ := rfl
  rw [((Item.coherent_of_clean hclean).setAll _).new_eq column change hchange]
  have hvalue := Item.value_setAll (changes.writes tag.content.kind) (copyItem tag ∅) column
  rw [hlast] at hvalue
  exact hvalue

/-- To write a governed column is to diverge in what stands for it. -/
theorem diverges_editedItem (hgoverned : column ∈ (b.registry tag.content.kind).allColumns)
    (hlast : Item.lastAssigned column (changes.writes tag.content.kind) = some v)
    (hvalue : v ≠ .null) :
    b.Diverges (editedItem tag changes) (recordedAs tag.content.kind column v) := by
  obtain ⟨change, hchange⟩ : ∃ change, (editedItem tag changes).pending.get? column = some change :=
    pending_editedItem_iff.2 ⟨v, hlast, hvalue⟩
  have hnew := new_same_lastAssigned hchange hlast
  rw [Rulebook.Diverges, Item.stateColumn, key_editedItem, schemaOf_editedItem]
  by_cases hdeletes : column = tag.content.kind.stateColumn ∧ v.isText Item.deletedState = true
  · rw [recordedAs, if_pos hdeletes]
    refine .inr ⟨rfl, change, hdeletes.1 ▸ hchange, ?_⟩
    rw [Json.isText_congr hnew]
    exact hdeletes.2
  · rw [recordedAs, if_neg hdeletes]
    refine .inl ⟨Dict.mem_keys_iff.2 (by rw [hchange]; rfl), hgoverned, ?_⟩
    rintro ⟨change', hchange', hdeleted⟩ hcolumn
    rw [← hcolumn, hchange] at hchange'
    obtain rfl := Option.some.inj hchange'
    rw [Json.isText_congr hnew] at hdeleted
    exact hdeletes ⟨hcolumn, hdeleted⟩

end Command

/-! ## The locks of a copy -/

/-- Whether a category is locked for a copy, on the master tag under its migration identifier. -/
def Store.LocksCopy (s : Store) (tag : ChildTag) (g : Category) : Prop :=
  ∃ m, s.stored.HasMasterTag m ∧ tag.migrationId = some m.migrationId ∧
    m.restrictions.isLocked g = true

theorem Store.Keyed.locksCopy_iff {b : Rulebook} {s : Store} {tag : ChildTag} {id : String}
    {rows : List MasterTag} (hkeyed : s.Keyed b) (hrows : s.stored.masterTags = .ok rows)
    (hid : tag.migrationId = some id) (g : Category) :
    s.LocksCopy tag g ↔ (MasterTag.locksUnder rows id).isLocked g = true := by
  obtain ⟨ts, hstored, hts⟩ := hkeyed
  rw [hstored] at hrows
  obtain rfl : ts.masterTags = rows := Except.ok.inj hrows
  rw [Restrictions.isLocked, MasterTag.isOn_locksUnder_iff hts.migrationIds, LocksCopy, hid, hstored]
  constructor
  · rintro ⟨m, ⟨rows', hrows', hm⟩, hsame, hlocked⟩
    obtain rfl : ts.masterTags = rows' := Except.ok.inj hrows'
    exact ⟨m, hm, (Option.some.inj hsame).symm, hlocked⟩
  · rintro ⟨m, hm, rfl, hlocked⟩
    exact ⟨m, ⟨_, rfl, hm⟩, rfl, hlocked⟩

/-- Whether a column of a copy lies in a category that is locked for the copy. -/
def Store.LocksColumn (b : Rulebook) (s : Store) (tag : ChildTag) (column : String) : Prop :=
  ∃ g, column ∈ (b.registry tag.content.kind).columns g ∧ s.LocksCopy tag g

/-! ## The answer -/

namespace Command

variable {b : Rulebook} {s s' : Store} {tag : ChildTag} {changes : Changes} {answer : Report}
  {column : String} {v : Json} {outcome : SaveOutcome} {d : Desk}

section Edit

variable (hs : s.Orderly b) (htag : s.stored.childTag? tag.content = .ok (some tag))
include hs htag

/-- An edit that is answered is a save of the edited copy, and is rejected exactly if the save is. -/
theorem answered_of_edit (hsystem : changes.system = false)
    (h : (edit b tag.content changes).run s = (.ok answer, s')) : ∃ outcome d,
      (b.save .user .noop).run ⟨s, editedItem tag changes, [], []⟩ = (.ok outcome, d) ∧
        s' = d.store ∧ answer.rejected = (editReport tag.content outcome).rejected := by
  have hopen : s.isOpen = true := hs.ready.isOpen_of_held htag
  rw [edit, Action.run_bind_ok (of_copyTag hopen htag)] at h
  simp only [hsystem] at h
  split at h
  · cases (Prod.mk.inj h).1
  obtain ⟨⟨outcome, d⟩, s₁, hsaved, h⟩ := Action.run_bind_eq_ok.1 h
  obtain ⟨hsave, rfl⟩ := Work.run_on_eq_ok.1 hsaved
  rw [Action.run_read (Store.run_childTag? tag.content d.store)] at h
  obtain ⟨hreport, rfl⟩ := Prod.mk.inj h
  refine ⟨outcome, d, hsave, rfl, ?_⟩
  obtain ⟨found, -, rfl⟩ := map_eq_ok.1 hreport
  cases outcome with
  | rejected r => rfl
  | saved done => rfl

/-- The save of an edited copy is rejected for its pending columns that are locked, if there are any. -/
theorem decided_of_edited (hexempt : b.settings.exempt tag.content.kind = false)
    (hsave : (b.save .user .noop).run ⟨s, editedItem tag changes, [], []⟩ = (.ok outcome, d)) :
    ∃ locked, (∀ column ∈ (editedItem tag changes).pending.keys,
        (column ∈ locked ↔ s.LocksColumn b tag column)) ∧
      (outcome = .rejected ⟨locked⟩ ∧ d.store.stored = s.stored ∨
        locked = [] ∧ ∃ done, outcome = .saved done) := by
  have hopen : s.isOpen = true := hs.ready.isOpen_of_held htag
  obtain ⟨id, hid, hmarks⟩ := hs.marks htag
  obtain ⟨rows, hrows⟩ := hs.keyed.masterTags
  obtain ⟨d₁, halike, hcheck⟩ := run_check_edited changes hopen hrows hid hmarks hexempt
  have hlocked : ∀ column ∈ (editedItem tag changes).pending.keys,
      (column ∈ Rulebook.lockedAmong (MasterTag.locksUnder rows id) (editedItem tag changes)
        (b.schemaOf (editedItem tag changes)).entries [] ↔ s.LocksColumn b tag column) := by
    intro column hpending
    rw [Rulebook.mem_lockedAmong_entries hpending, schemaOf_editedItem]
    exact exists_congr fun g => and_congr_right fun _ => (hs.keyed.locksCopy_iff hrows hid g).symm
  refine ⟨_, hlocked, ?_⟩
  cases outcome with
  | rejected r =>
    rw [Rulebook.save_rejected_iff, hcheck] at hsave
    obtain ⟨hrejects, rfl⟩ := Prod.mk.inj hsave
    obtain ⟨-, rfl⟩ := Rulebook.checkOf_eq_inr.1 (Except.ok.inj hrejects)
    exact .inl ⟨rfl, halike.stored⟩
  | saved done =>
    refine .inr ⟨?_, done, rfl⟩
    by_contra hsome
    rw [Rulebook.checkOf_eq_inr.2 ⟨hsome, rfl⟩] at hcheck
    rw [Rulebook.save_rejected_iff.2 hcheck] at hsave
    cases (Prod.mk.inj hsave).1

/-- A save of the edited copy that was not rejected has recorded all that diverges. -/
theorem recorded_of_edited {done : SaveReport}
    (hsave : (b.save .user .noop).run ⟨s, editedItem tag changes, [], []⟩ = (.ok (.saved done), d)) :
    ∃ tag', d.store.stored.childTag? tag.content = .ok (some tag') ∧
      ∀ x, b.Diverges (editedItem tag changes) x → x ∈ tag'.changes := by
  obtain ⟨tag', htag', hchanges⟩ :=
    (tracks_editedItem hs htag changes).of_saved (fun _ => rfl) hsave
  rw [tagOwner_editedItem] at htag'
  exact ⟨tag', htag', fun x hx => (hchanges x).2 (.inr hx)⟩

end Edit

/-- What an edit that was answered has made of a value that it wrote to a governed column of a copy, from
a store `s` to the store `s'` that it left: if the edit was accepted, what stands for the column is
recorded; if it was rejected, the column is named exactly if it is locked, and no row has changed; and it
was rejected if the column is locked. -/
structure Accounts (b : Rulebook) (s s' : Store) (tag : ChildTag) (answer : Report) (column : String)
    (v : Json) : Prop where
  recorded : answer.rejected = none → ∃ tag', s'.stored.childTag? tag.content = .ok (some tag') ∧
    recordedAs tag.content.kind column v ∈ tag'.changes
  named : ∀ r, answer.rejected = some r → (column ∈ r.columns ↔ s.LocksColumn b tag column)
  unchanged : ∀ r, answer.rejected = some r → s'.stored = s.stored
  obeyed : s.LocksColumn b tag column → ∃ r, answer.rejected = some r ∧ column ∈ r.columns

end Command

/-- A user's edit of a copy, after any events, accounts for the last value that it writes to a governed
column, if that is not null. -/
theorem edit_accounts (b : Rulebook) {events : List Event} {s₀ s' : Store} {tag : ChildTag}
    {changes : Command.Changes} {answer : Report} {column : String} {v : Json}
    (hclock : s₀.supply.ShowsDates) (hempty : s₀.stored = .of .empty)
    (htag : (runEvents b events s₀).stored.childTag? tag.content = .ok (some tag))
    (hexempt : b.settings.exempt tag.content.kind = false) (hsystem : changes.system = false)
    (hedit : (Command.edit b tag.content changes).run (runEvents b events s₀) = (.ok answer, s'))
    (hgoverned : column ∈ (b.registry tag.content.kind).allColumns)
    (hlast : Item.lastAssigned column (changes.writes tag.content.kind) = some v)
    (hvalue : v ≠ .null) :
    Command.Accounts b (runEvents b events s₀) s' tag answer column v := by
  have hs : (runEvents b events s₀).Orderly b :=
    orderly_runEvents (Store.orderly_of_empty hclock hempty) events
  obtain ⟨outcome, d, hsave, rfl, hrejected⟩ := Command.answered_of_edit hs htag hsystem hedit
  have hpending : column ∈ (Command.editedItem tag changes).pending.keys := by
    obtain ⟨change, hchange⟩ := Command.pending_editedItem_iff.2 ⟨v, hlast, hvalue⟩
    exact Dict.mem_keys_iff.2 (by rw [hchange]; rfl)
  obtain ⟨locked, hlocked, ⟨rfl, hsame⟩ | ⟨rfl, done, rfl⟩⟩ :=
    Command.decided_of_edited hs htag hexempt hsave
  · have hanswer : answer.rejected = some ⟨locked⟩ := hrejected
    refine ⟨?_, ?_, fun _ _ => hsame, ?_⟩
    · intro haccepted
      rw [hanswer] at haccepted
      cases haccepted
    · intro r hr
      rw [hanswer] at hr
      obtain rfl := Option.some.inj hr
      exact hlocked column hpending
    · exact fun h => ⟨_, hanswer, (hlocked column hpending).2 h⟩
  · have hanswer : ∀ r, answer.rejected ≠ some r := fun r hr => nomatch hrejected.symm.trans hr
    obtain ⟨tag', htag', hrecorded⟩ := Command.recorded_of_edited hs htag hsave
    refine ⟨fun _ => ?_, fun r hr => absurd hr (hanswer r), fun r hr => absurd hr (hanswer r), ?_⟩
    · exact ⟨tag', htag', hrecorded _ (Command.diverges_editedItem hgoverned hlast hvalue)⟩
    · exact fun h => absurd ((hlocked column hpending).2 h) List.not_mem_nil

/-! ## Edits of a page that is partly locked -/

namespace Sample

/-- The store after a page was synced and a category of the page locked. -/
def lockedIn (g : Category) : Store :=
  runEvents rulebook (firstSync ++ [.request (.setLocks ⟨10⟩ page [.only g] true)]) (.inMemory supply)

/-- The end of a user's edit of the copy of the page. -/
def editPage (s : Store) (assignments : List Assignment) (delete : Bool) : Result Report × Store :=
  (Command.edit rulebook (copyTag []).content ⟨assignments, delete, false⟩).run s

/-- What an edit that was answered names, if it was rejected. -/
theorem exists_answer {s : Store} {assignments : List Assignment} {delete : Bool}
    {columns : Option (List String)}
    (h : ((editPage s assignments delete).1.toOption.map fun answer =>
      answer.rejected.map Rejection.columns) = some columns) :
    ∃ answer, editPage s assignments delete = (.ok answer, (editPage s assignments delete).2) ∧
      answer.rejected.map Rejection.columns = columns := by
  obtain ⟨answer, hanswer, hcolumns⟩ := Option.map_eq_some_iff.1 h
  exact ⟨answer, Prod.ext (Result.toOption_eq_some.1 hanswer) rfl, hcolumns⟩

/-- The body is written twice and the copy deleted: the body is recorded, as only settings are locked. -/
theorem accounts_body : ∃ tag',
    (editPage (lockedIn .settings) [("body", .null), ("body", .string "new")] true).2.stored.childTag?
      (copyTag []).content = .ok (some tag') ∧ "body" ∈ tag'.changes := by
  have htag : (lockedIn .settings).stored.childTag? (copyTag []).content =
      .ok (some (copyTag [])) := Result.toOption_eq_some.1 (by decide +kernel)
  obtain ⟨answer, hedit, hnone⟩ : ∃ answer,
      editPage (lockedIn .settings) [("body", .null), ("body", .string "new")] true = (.ok answer, _) ∧
        answer.rejected.map Rejection.columns = none := exists_answer (by decide +kernel)
  have hgoverned : "body" ∈ (rulebook.registry (copyTag []).content.kind).allColumns := by decide
  have hlast : Item.lastAssigned "body" (Command.Changes.writes (copyTag []).content.kind
    ⟨[("body", .null), ("body", .string "new")], true, false⟩) = some (.string "new") := rfl
  exact (edit_accounts rulebook showsDates_supply rfl htag rfl rfl hedit hgoverned hlast
    nofun).recorded (Option.map_eq_none_iff.1 hnone)

/-- Whether edits name or record each governed column that they write, and are rejected if it is locked,
where the answer and the last value are as `p` says. -/
def EditsAccount (p : Report → Json → Prop) : Prop :=
  ∀ (b : Rulebook) (events : List Event) (s₀ s' : Store) (tag : ChildTag) (changes : Command.Changes)
    (answer : Report) (column : String) (v : Json), s₀.supply.ShowsDates → s₀.stored = .of .empty →
    (runEvents b events s₀).stored.childTag? tag.content = .ok (some tag) →
    b.settings.exempt tag.content.kind = false → changes.system = false →
    (Command.edit b tag.content changes).run (runEvents b events s₀) = (.ok answer, s') →
    column ∈ (b.registry tag.content.kind).allColumns →
    Item.lastAssigned column (changes.writes tag.content.kind) = some v → p answer v →
    ((∃ r, answer.rejected = some r ∧ column ∈ r.columns) ∨
      ∃ tag', s'.stored.childTag? tag.content = .ok (some tag') ∧
        Command.recordedAs tag.content.kind column v ∈ tag'.changes) ∧
    ((runEvents b events s₀).LocksColumn b tag column → ∃ r, answer.rejected = some r)

/-- A rejected edit neither names nor records what it writes to columns that are not locked, and an
accepted one does not record a column that it gives null. -/
theorem not_editsAccount :
    ¬ EditsAccount (fun _ v => v ≠ .null) ∧ ¬ EditsAccount (fun answer _ => answer.rejected = none) := by
  constructor
  · intro h
    have htag : (lockedIn .settings).stored.childTag? (copyTag []).content =
        .ok (some (copyTag [])) := Result.toOption_eq_some.1 (by decide +kernel)
    obtain ⟨answer, hedit, hcolumns⟩ : ∃ answer,
        editPage (lockedIn .settings) [("body", .string "x"), ("editing_roles", .string "y")] false =
            (.ok answer, _) ∧
          answer.rejected.map Rejection.columns = some ["editing_roles"] :=
      exists_answer (by decide +kernel)
    have hafter : (editPage (lockedIn .settings)
        [("body", .string "x"), ("editing_roles", .string "y")] false).2.stored.childTag?
          (copyTag []).content = .ok (some (copyTag [])) :=
      Result.toOption_eq_some.1 (by decide +kernel)
    rcases (h rulebook _ _ _ (copyTag []) _ answer "body" (.string "x") showsDates_supply rfl htag rfl
      rfl hedit (by decide) rfl nofun).1 with ⟨r, hr, hnamed⟩ | ⟨tag', htag', hrecorded⟩
    · rw [hr] at hcolumns
      rw [Option.some.inj hcolumns] at hnamed
      revert hnamed
      decide
    · obtain rfl := Option.some.inj (Except.ok.inj (hafter.symm.trans htag'))
      revert hrecorded
      decide
  · intro h
    have hs : (lockedIn .content).Orderly rulebook :=
      orderly_runEvents (Store.orderly_of_empty showsDates_supply rfl) _
    have htag : (lockedIn .content).stored.childTag? (copyTag []).content =
        .ok (some (copyTag [])) := Result.toOption_eq_some.1 (by decide +kernel)
    obtain ⟨answer, hedit, hnone⟩ : ∃ answer,
        editPage (lockedIn .content) [("body", .null), ("editing_roles", .string "y")] false =
            (.ok answer, _) ∧ answer.rejected.map Rejection.columns = none :=
      exists_answer (by decide +kernel)
    have hlocked : (lockedIn .content).LocksColumn rulebook (copyTag []) "body" := by
      obtain ⟨rows, hrows, hlocks⟩ := Option.map_eq_some_iff.1
        (show (lockedIn .content).stored.masterTags.toOption.map (fun rows => (MasterTag.locksUnder rows
          (madeTemplate.migrationId rulebook.settings.marker page)).isLocked .content) = some true by
            decide +kernel)
      exact ⟨.content, by decide,
        (hs.keyed.locksCopy_iff (Result.toOption_eq_some.1 hrows) rfl .content).2 hlocks⟩
    obtain ⟨r, hr⟩ := (h rulebook _ _ _ (copyTag []) _ answer "body" .null showsDates_supply rfl htag
      rfl rfl hedit (by decide) rfl (Option.map_eq_none_iff.1 hnone)).2 hlocked
    rw [hr] at hnone
    cases hnone

end Sample

end CourseBlueprint
