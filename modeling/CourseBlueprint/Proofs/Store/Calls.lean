import CourseBlueprint.Proofs.Store.Basic

/-!
# Calls of a data directory

Every call of a data directory is about one table. It leaves all files but the lock file as they are, or
it succeeds and has written that table alone, with one more row or with the first row of its key replaced.
A table that cannot be read is left as it is, and only looking it up before the directory is there
succeeds (`Directory.Call.keepsTables`).

A call that writes is a revision of its table, so what is to be shown of each is which rows it adds or
replaces (`KeepsTables.of_revise`).
-/

namespace CourseBlueprint

namespace Tables

variable {α : Type} {test : α → Bool} {row : α} {rows new : List α}

/-- One row is added behind the others, none of which passes a test, or it takes the place of the first
one that does. -/
inductive ChangesRow (test : α → Bool) (rows : List α) : List α → Prop
  | added {row : α} (hrow : test row = true) (hnone : ∀ a ∈ rows, test a = false) :
    ChangesRow test rows (rows ++ [row])
  | replaced {before after : List α} {old row : α} (hrows : rows = before ++ old :: after)
      (hbefore : ∀ a ∈ before, test a = false) (hold : test old = true) :
    ChangesRow test rows (before ++ row :: after)

theorem forall_eq_false_of_find? (h : rows.find? test = none) : ∀ a ∈ rows, test a = false :=
  fun a ha => Bool.eq_false_iff.2 (List.find?_eq_none.1 h a ha)

theorem changesRow_replaceFirst {old : α} (h : rows.find? test = some old) (row : α) :
    ChangesRow test rows (replaceFirst test row rows) := by
  obtain ⟨before, after, hrows, hbefore, hold, hreplaced⟩ := replaceFirst_eq_append h row
  rw [hreplaced]
  exact .replaced hrows hbefore hold

theorem changesRow_insertUnless (hrow : test row = true)
    (hnew : (insertUnless test row rows).2 = some new) : ChangesRow test rows new := by
  unfold insertUnless at hnew
  split at hnew
  · cases hnew
  · next hnone =>
    rw [← Option.some.inj hnew]
    exact .added hrow (forall_eq_false_of_find? hnone)

theorem changesRow_upsert (hrow : test row = true) (rows : List α) :
    ChangesRow test rows (upsert test row rows) := by
  unfold upsert
  by_cases hany : rows.any test = true
  · rw [if_pos hany]
    obtain ⟨old, hold⟩ := Option.isSome_iff_exists.1 (List.find?_isSome.2 (List.any_eq_true.1 hany))
    exact changesRow_replaceFirst hold row
  · rw [if_neg hany]
    exact .added hrow fun a ha => Bool.eq_false_iff.2 fun h => hany (List.any_eq_true.2 ⟨a, ha, h⟩)

theorem changesRow_updateChildTag {β : Type} {content : ContentKey}
    {update : ChildTag → β × Option ChildTag} {rows new : List ChildTag}
    (hnew : (updateChildTag content update rows).2 = some new) :
    ChangesRow (fun t => t.content = content) rows new := by
  unfold updateChildTag at hnew
  split at hnew
  · cases hnew
  · next hfind =>
    obtain ⟨tag', -, rfl⟩ := Option.map_eq_some_iff.1 hnew
    exact changesRow_replaceFirst hfind tag'

end Tables

namespace Directory

/-! ## Calls -/

/-- What can be asked of a data directory. Work on a child tag has an answer of its own. -/
inductive Call (α : Type) where
  | templates
  | insertTemplate (t : Template)
  | subscriptions
  | insertSubscription (s : Subscription)
  | masterTags
  | masterTagsOf (ids : List String)
  | upsertMasterTag (t : MasterTag)
  | childTags
  | childTag (content : ContentKey)
  | insertChildTag (t : ChildTag)
  | updateChildTag (content : ContentKey) (update : ChildTag → α × Option ChildTag)

namespace Call

variable {α : Type}

/-- What a call answers with. -/
def Answer : Call α → Type
  | templates => List Template
  | insertTemplate _ => Template
  | subscriptions => List Subscription
  | insertSubscription _ => Subscription
  | masterTags => List MasterTag
  | masterTagsOf _ => List MasterTag
  | upsertMasterTag _ => Unit
  | childTags => List ChildTag
  | childTag _ => Option ChildTag
  | insertChildTag _ => ChildTag
  | updateChildTag _ _ => Option α

/-- Making a call. -/
def act : (x : Call α) → Action Directory x.Answer
  | templates => Directory.templates
  | insertTemplate t => Directory.insertTemplate t
  | subscriptions => Directory.subscriptions
  | insertSubscription s => Directory.insertSubscription s
  | masterTags => Directory.masterTags
  | masterTagsOf ids => Directory.masterTagsOf ids
  | upsertMasterTag t => Directory.upsertMasterTag t
  | childTags => Directory.childTags
  | childTag content => Directory.childTag? content
  | insertChildTag t => Directory.insertChildTag t
  | updateChildTag content update => Directory.updateChildTag content update

/-- The rows of the table that a call is about. -/
def Row : Call α → Type
  | templates | insertTemplate _ => Template
  | subscriptions | insertSubscription _ => Subscription
  | masterTags | masterTagsOf _ | upsertMasterTag _ => MasterTag
  | childTags | childTag _ | insertChildTag _ | updateChildTag _ _ => ChildTag

/-- The table that a call is about. -/
def table : (x : Call α) → Table x.Row
  | templates | insertTemplate _ => templateTable
  | subscriptions | insertSubscription _ => subscriptionTable
  | masterTags | masterTagsOf _ | upsertMasterTag _ => masterTagTable
  | childTags | childTag _ | insertChildTag _ | updateChildTag _ _ => childTagTable

/-- Whether a row has the key of a call that writes. -/
def hasKey : (x : Call α) → x.Row → Bool
  | insertTemplate t => fun t' => t'.courseId = t.courseId
  | insertSubscription s => fun s' => s'.samePairing s
  | upsertMasterTag t => fun t' => t'.migrationId = t.migrationId
  | insertChildTag t => fun t' => t'.content = t.content
  | updateChildTag content _ => fun t => t.content = content
  | templates | subscriptions | masterTags | masterTagsOf _ | childTags | childTag _ => fun _ => false

/-- Whether a call only looks rows up. -/
def looksUp : Call α → Bool
  | templates | subscriptions | masterTags | masterTagsOf _ | childTags | childTag _ => true
  | insertTemplate _ | insertSubscription _ | upsertMasterTag _ | insertChildTag _
  | updateChildTag _ _ => false

/-- The times in the rows that a call brings are dates. -/
def IsDated : Call α → Prop
  | insertTemplate t => t.IsDated
  | upsertMasterTag t => t.IsDated
  | insertChildTag t => t.IsDated
  | updateChildTag _ update => ∀ t t', t.IsDated → (update t).2 = some t' → t'.IsDated
  | _ => True

end Call

/-! ## What a call leaves -/

variable {α β ρ : Type}

/-- A table was written alone, with one row changed, by a call that succeeded. -/
structure Rewritten (table : Table ρ) (hasKey : ρ → Bool) (d : Directory) (r : Result β)
    (d' : Directory) : Prop where
  answers : ∃ b, r = .ok b
  rows : ∃ rows new, d.stored table = .ok rows ∧ d'.stored table = .ok new ∧
    Tables.ChangesRow hasKey rows new
  others : ∀ name, name ≠ lockFile → name ≠ table.file → d'.entries.get? name = d.entries.get? name

/-- A call left all tables as they were, or it wrote its own as it should. If that cannot be read, it left
it too, and failed or only looked before there was a directory. -/
structure KeepsTables (table : Table ρ) (hasKey : ρ → Bool) (looksUp : Bool) (d : Directory)
    (r : Result β) (d' : Directory) : Prop where
  files : SameFiles d d' ∨ Rewritten table hasKey d r d'
  unreadable : ∀ e, d.stored table = .error e → SameFiles d d' ∧
    ((∃ e', r = .error e') ∨ looksUp = true ∧ d.isPresent = false)

/-- A look-up leaves the directory, and fails if its table cannot be read. -/
theorem KeepsTables.of_lookUp {table : Table ρ} {hasKey : ρ → Bool} {d : Directory} (f : List ρ → β) :
    KeepsTables table hasKey true d ((rows table >>= fun rows => pure (f rows)).run d).1
      ((rows table >>= fun rows => pure (f rows)).run d).2 := by
  rw [Action.run_read (run_rows table d)]
  refine ⟨.inl fun _ _ => rfl, fun e he => ⟨fun _ _ => rfl, ?_⟩⟩
  cases hpresent : d.isPresent with
  | false => exact .inr ⟨rfl, rfl⟩
  | true =>
    rw [read_eq_stored hpresent, he]
    exact .inl ⟨e, rfl⟩

theorem KeepsTables.of_rows {table : Table ρ} {hasKey : ρ → Bool} {d : Directory} :
    KeepsTables table hasKey true d ((rows table).run d).1 ((rows table).run d).2 := by
  rw [← bind_pure (rows table)]
  exact .of_lookUp id

/-- A revision keeps the tables if it makes good rows of good ones and changes one of them. -/
theorem KeepsTables.of_revise {table : Table ρ} {Good : ρ → Prop} (ht : table.Sound Good)
    {hasKey : ρ → Bool} {f : List ρ → β × Option (List ρ)}
    (hgood : ∀ rows new, (∀ a ∈ rows, Good a) → (f rows).2 = some new → ∀ a ∈ new, Good a)
    (hchanges : ∀ rows new, (f rows).2 = some new → Tables.ChangesRow hasKey rows new)
    {d d' : Directory} {r : Result β} (h : (revise table f).run d = (r, d')) :
    KeepsTables table hasKey false d r d' := by
  have hnew : ∀ rows new, d.stored table = .ok rows → (f rows).2 = some new → ∀ a ∈ new, Good a :=
    fun rows new hrows => hgood rows new (good_of_stored ht hrows)
  constructor
  · rcases files_of_revise ht.not_lockFile h with hsame | ⟨-, rows, new, hrows, hf, hr, htext, hothers⟩
    · exact .inl hsame
    · refine .inr ⟨⟨_, hr⟩, ⟨rows, new, hrows, ?_, hchanges rows new hf⟩, hothers⟩
      rw [stored_of_text htext, ht.faithful.decode?_encode (hnew rows new hrows hf)]
      rfl
  · intro e he
    rcases files_of_revise ht.not_lockFile h with hsame | ⟨-, rows, new, hrows, -⟩
    · refine ⟨hsame, .inl ?_⟩
      rcases (run_revise ht hnew h).2 with ⟨e', hr, -⟩ | ⟨rows, hrows, -⟩
      · exact ⟨e', hr⟩
      · rw [he] at hrows
        cases hrows
    · rw [he] at hrows
      cases hrows

theorem KeepsTables.of_insertUnless {table : Table ρ} {Good : ρ → Prop} (ht : table.Sound Good)
    {p : ρ → Bool} {row : ρ} (hrow : Good row) (hp : p row = true) (d : Directory) :
    KeepsTables table p false d ((insertUnless table p row).run d).1
      ((insertUnless table p row).run d).2 := by
  rw [Store.insertUnless_eq_revise]
  exact .of_revise ht (fun _ _ => Store.good_insertUnless hrow)
    (fun _ _ => Tables.changesRow_insertUnless hp) rfl

/-- Whatever is in a data directory, a call leaves its files as they are or succeeds and changes one row
of its own table. It never writes a table that cannot be read. -/
theorem Call.keepsTables (x : Call α) (hx : x.IsDated) (d : Directory) :
    KeepsTables x.table x.hasKey x.looksUp d (x.act.run d).1 (x.act.run d).2 := by
  cases x with
  | templates => exact .of_rows
  | subscriptions => exact .of_rows
  | masterTags => exact .of_rows
  | childTags => exact .of_rows
  | masterTagsOf ids => exact .of_lookUp _
  | childTag content => exact .of_lookUp _
  | insertTemplate t => exact .of_insertUnless templateTable_sound hx (decide_eq_true rfl) d
  | insertSubscription s =>
    have hself : s.samePairing s = true := by simp [Subscription.samePairing]
    exact .of_insertUnless (p := fun s' => s'.samePairing s) subscriptionTable_sound trivial hself d
  | insertChildTag t => exact .of_insertUnless childTagTable_sound hx (decide_eq_true rfl) d
  | upsertMasterTag t =>
    refine .of_revise (f := fun rows =>
      ((), some (Tables.upsert (fun t' => t'.migrationId = t.migrationId) t rows)))
      masterTagTable_sound (fun rows new hrows hnew a ha => ?_) (fun rows new hnew => ?_) rfl
    · rw [← Option.some.inj hnew] at ha
      rcases Tables.mem_upsert ha with rfl | ha
      · exact hx
      · exact hrows a ha
    · rw [← Option.some.inj hnew]
      refine Tables.changesRow_upsert ?_ rows
      exact decide_eq_true rfl
  | updateChildTag content update =>
    show KeepsTables _ _ _ d ((Directory.updateChildTag content update).run d).1
      ((Directory.updateChildTag content update).run d).2
    rw [Store.updateChildTag_eq_revise]
    exact .of_revise childTagTable_sound (fun rows new => Tables.good_updateChildTag hx)
      (fun rows new => Tables.changesRow_updateChildTag) rfl

end Directory

namespace Sample

/-- A directory in which the text of the child tags breaks off. -/
def damaged : Directory :=
  .present (.ofList [("child_tags.json", .file "["), ("templates.json", .file "[]")])

/-- A template is added beside the damaged table. -/
def addition : Directory.Call Unit := .insertTemplate ⟨⟨1⟩, ⟨2⟩, .epoch⟩

/-- The damaged table is left alone, and the template is the only change. -/
theorem keepsTables_addition :
    addition.IsDated ∧ Directory.KeepsTables addition.table addition.hasKey false damaged
      (addition.act.run damaged).1 (addition.act.run damaged).2 := by
  have hdated : addition.IsDated := ⟨by decide, by decide⟩
  exact ⟨hdated, addition.keepsTables hdated damaged⟩

end Sample

end CourseBlueprint
