import CourseBlueprint.Proofs.Command.Rewriting
import CourseBlueprint.Proofs.Concurrency.Steps

/-!
# Commands that take turns

Locking and syncing take turns on a store call by call. If whatever a call takes for granted still
holds when it is made, the tables in the end are those of one command after the other, but for generated
identifiers and times (`interleaved_serial`). Nothing in a command sees to that: of two locks of the
same content that take turns one can be lost (`Sample.lost_lock`), and two first syncs can make two
copies (`Sample.copied_twice`).
-/

namespace CourseBlueprint

namespace Task

variable {b : Rulebook} {known : List ContentKey} {ts : Tables}

theorem subject_todo {task : Task} {k : Subject} (hk : k ∈ (task.todo b ts).subject?) :
    ∃ t ∈ ts.templates, k = t.subject b.settings.marker task.content := by
  cases task with
  | setLocks course content locks on =>
    simp only [todo] at hk
    split at hk
    · cases hk
    · split at hk
      · cases hk
      · split at hk
        · cases hk
        · next t ht =>
          obtain rfl := Option.some.inj hk
          exact ⟨t, List.mem_of_find?_eq_some ht, rfl⟩
  | sync subscription content assignments =>
    simp only [todo] at hk
    split at hk
    · cases hk
    · split at hk
      · cases hk
      · split at hk
        · cases hk
        · next t ht =>
          obtain rfl := Option.some.inj hk
          exact ⟨t, List.mem_of_find?_eq_some ht, rfl⟩

/-- Commands deal with different master tags, if their content is different. -/
theorem compatible_todo {c d : Task}
    (hdistinct : Tables.Distinguishes (fun k => k = c.content ∨ k = d.content) ts.templates) :
    (c.todo b ts).Compatible (d.todo b ts) := by
  intro k hk k' hk' hid
  obtain ⟨t, ht, rfl⟩ := subject_todo hk
  obtain ⟨t', -, rfl⟩ := subject_todo hk'
  obtain ⟨htemplate, hdigest⟩ := Template.migrationId_inj hid
  rw [← htemplate] at hdigest
  have hcontent := hdistinct t ht _ _ (.inl rfl) (.inr rfl) hdigest
  have hsubject : t.subject b.settings.marker d.content = t'.subject b.settings.marker d.content := by
    unfold Template.subject Template.migrationId
    rw [htemplate]
  rw [hcontent, hsubject]

/-- A command draws three identifiers at most. -/
theorem draws_todo (b : Rulebook) (ts : Tables) (task : Task) : (task.todo b ts).draws ≤ 3 := by
  cases task.todo b ts with
  | nothing => exact Nat.zero_le 3
  | relock => exact Nat.le_add_left 1 2
  | sync => exact le_rfl
  | bring => exact Nat.le_succ 2
  | copy => exact Nat.le_succ 2

/-- What a command has to do is the same from tables that have gone on. -/
theorem todo_onward {ts' : Tables} (h : ts.Onward ts') (task : Task) :
    task.todo b ts' = task.todo b ts := by
  cases task with
  | setLocks => simp only [todo, h.templates]
  | sync => simp only [todo, h.templates, h.subscriptions]

/-- The store after a command. -/
def after (b : Rulebook) (s : Store) (task : Task) : Store := ((task.act b).run s).2

/-- A command that is run on its own does what it has to do. -/
theorem view_after {n : Nat} {s : Store} (task : Task)
    (hs : s.Serves b known (n + (task.todo b ts).draws) ts) :
    ∃ ts', (task.after b s).Serves b known n ts' ∧ ts.Onward ts' ∧
      ts'.view known = (task.todo b ts).run (ts.view known) := by
  obtain ⟨r, s', ts', hrun, hs', hrest⟩ :=
    Script.run_of_achieves (achieves_script b known True task ts) hs
  rw [toAction_script] at hrun
  refine ⟨ts', ?_, hrest⟩
  rw [after, hrun]
  exact hs'

end Task

/-! ## Commands that take turns -/

namespace Store

/-- Whether two stores hold the same rows, but for their order, their times, and identifiers that were
generated since the content of the copies was known. -/
def Matches (known : List ContentKey) (s s' : Store) : Prop :=
  ∃ ts ts', s.stored = .of ts ∧ s'.stored = .of ts' ∧ ts.view known = ts'.view known

/-- Whether a subscription has one copy at most of each piece of blueprint content. -/
def CopiesOnce (s : Store) : Prop :=
  ∃ ts, s.stored = .of ts ∧ (ts.childTags.map fun c => (c.subscriptionId, c.migrationId)).Nodup

variable {b : Rulebook} {known : List ContentKey} {s s' : Store} {ts : Tables} {c d : Task}

/-- The same locks are held under each migration identifier. -/
theorem Matches.locks (h : s.Matches known s') (id : String) :
    (s.stored.masterTags.map fun rows => MasterTag.locksUnder rows id) =
      s'.stored.masterTags.map fun rows => MasterTag.locksUnder rows id := by
  obtain ⟨ts, ts', hts, hts', hview⟩ := h
  have hlocks : MasterTag.locksUnder ts.masterTags id = MasterTag.locksUnder ts'.masterTags id := by
    rw [← Serves.locks_view known, ← Serves.locks_view known, hview]
  rw [hts, hts']
  exact congrArg Except.ok hlocks

theorem Serves.matches_after (hs : s.Serves b known ((d.todo b ts).draws + (c.todo b ts).draws) ts)
    {ts' : Tables} (hstored : s'.stored = .of ts')
    (hview : ts'.view known = (d.todo b ts).run ((c.todo b ts).run (ts.view known))) :
    s'.Matches known (d.after b (c.after b s)) := by
  obtain ⟨ts₁, hs₁, honward, hview₁⟩ := c.view_after hs
  rw [← Task.todo_onward honward, ← Nat.zero_add (Todo.draws _)] at hs₁
  obtain ⟨ts₂, hs₂, -, hview₂⟩ := d.view_after hs₁
  refine ⟨ts', ts₂, hstored, hs₂.holds.stored, ?_⟩
  rw [hview, hview₂, Task.todo_onward honward, hview₁]

/-- Two commands that take turns on a store leave it as one after the other does. -/
theorem Serves.interleaved (hs : s.Serves b known 6 ts)
    (hdistinct : Tables.Distinguishes (fun k => k = c.content ∨ k = d.content) ts.templates)
    (h : Script.Interleaved true (c.script b) (d.script b) s s') :
    (s'.Matches known (d.after b (c.after b s)) ∨ s'.Matches known (c.after b (d.after b s))) ∧
      s'.CopiesOnce := by
  have hc := c.draws_todo b ts
  have hd := d.draws_todo b ts
  have hboth : s.Serves b known ((d.todo b ts).draws + (c.todo b ts).draws) ts :=
    hs.mono (by omega)
  obtain ⟨ts', hs', hserial⟩ := Script.serial_of_interleaved h hboth
    (Task.achieves_script b known False c ts) (.refl ts)
    (Task.achieves_script b known False d ts) (.refl ts) (Task.compatible_todo hdistinct)
  refine ⟨?_, ts', hs'.holds.stored, hs'.oneCopy⟩
  rcases hserial with hview | hview
  · exact .inl (hboth.matches_after hs'.holds.stored hview)
  · rw [Nat.add_comm] at hboth
    exact .inr (hboth.matches_after hs'.holds.stored hview)

end Store

/-- Two commands that take turns, after any events on a store that was empty, leave it as one after the
other does, and with one copy at most of each piece of content in a subscription, if whatever a call
takes for granted holds when it is made. The store works, the identifiers that are drawn next are new,
and the contents that the commands are about are told apart by their digests. -/
theorem interleaved_serial (b : Rulebook) (events : List Event) {c d : Task} {s₀ s s' : Store}
    (hclock : s₀.supply.ShowsDates) (hempty : s₀.stored = .of .empty)
    (hs : s = runEvents b events s₀) (hworks : s.Works)
    (hspares : ∀ rows, s.stored.childTags = .ok rows →
      s.supply.Spares 6 (rows.map fun c => c.content.id))
    (hdistinct : s.Distinguishes fun k => k = c.content ∨ k = d.content)
    (h : Script.Interleaved true (c.script b) (d.script b) s s') :
    ∃ ts, s.stored = .of ts ∧
      (s'.Matches (ts.childTags.map ChildTag.content) (d.after b (c.after b s)) ∨
        s'.Matches (ts.childTags.map ChildTag.content) (c.after b (d.after b s))) ∧
      s'.CopiesOnce := by
  have hready : s₀.Ready := Store.ready_of_empty hclock hempty
  have hmoves : s₀.Moves b (fun _ => True) s := by
    rw [hs]
    exact moves_runEvents hready events fun _ _ _ _ => trivial
  have htidy : s.stored.Tidy b := hs ▸ tidy_runEvents hclock hempty events
  obtain ⟨ts, hstored, hkeyed⟩ := hmoves.keyed ⟨.empty, hempty, Tables.keyed_empty b⟩
  have hrows : s.stored.childTags = .ok ts.childTags := congrArg Stored.childTags hstored
  have hserves : s.Serves b (ts.childTags.map ChildTag.content) 6 ts :=
    { holds := ⟨hworks, (hmoves.ready hready).shown, rfl, hstored⟩
      clock := hmoves.supply.showsDates hclock
      keyed := hkeyed
      oneCopy := htidy.copies _ hrows
      known := fun k hk => List.mem_map.1 hk
      spares := hspares _ hrows }
  have hdigests : Tables.Distinguishes (fun k => k = c.content ∨ k = d.content) ts.templates :=
    fun t ht => hdistinct t ⟨ts.templates, by rw [hstored]; rfl, ht⟩
  exact ⟨ts, hstored, hserves.interleaved hdigests h⟩

namespace Sample

/-- A course follows a blueprint. -/
def follow : List Event := [.request (.makeBlueprint ⟨10⟩), .request (.subscribe ⟨10⟩ ⟨4⟩)]

def followed : Store := runEvents rulebook follow (.inMemory supply)

def lockContent : Task := .setLocks ⟨10⟩ page [.only .content] true

def lockSettings : Task := .setLocks ⟨10⟩ page [.only .settings] true

def syncPage : Task := .sync (supply.ids 1) page []

theorem spares_followed : ∀ rows, followed.stored.childTags = .ok rows →
    followed.supply.Spares 6 (rows.map fun c => c.content.id) := by
  intro rows hrows
  have hnone : followed.stored.childTags = .ok [] := Result.toOption_eq_some.1 (by decide +kernel)
  rw [hnone] at hrows
  obtain rfl := Except.ok.inj hrows
  have hused : followed.supply.idsUsed = 2 := by decide +kernel
  have hids : followed.supply.ids = supply.ids := rfl
  have hdifferent : ∀ i < 8, ∀ j < 8, supply.ids i = supply.ids j → i = j := by decide
  refine ⟨fun i j _ hi _ hj heq => ?_, fun _ _ _ => List.not_mem_nil⟩
  rw [hids] at heq
  exact hdifferent i (by omega) j (by omega) heq

/-- A lock is set while a sync is under way, after the sync has looked for a copy and before it makes
one. -/
theorem interleaved_serial_lock_sync :
    ∃ s', Script.Interleaved true (lockContent.script rulebook) (syncPage.script rulebook) followed s' ∧
      ∃ ts, followed.stored = .of ts ∧
        (s'.Matches (ts.childTags.map ChildTag.content)
            (syncPage.after rulebook (lockContent.after rulebook followed)) ∨
          s'.Matches (ts.childTags.map ChildTag.content)
            (lockContent.after rulebook (syncPage.after rulebook followed))) ∧
        s'.CopiesOnce := by
  have hturns : (Script.takeTurns true
      [false, true, false, false, false, true, false, true, false, false, false]
      (lockContent.script rulebook) (syncPage.script rulebook) followed).isSome = true := by
    decide +kernel
  obtain ⟨s', hs'⟩ := Option.isSome_iff_exists.1 hturns
  have hinterleaved := Script.interleaved_of_takeTurns hs'
  refine ⟨s', hinterleaved, interleaved_serial rulebook follow showsDates_supply rfl rfl rfl
    spares_followed ?_ hinterleaved⟩
  rintro t - k k' (rfl | rfl) (rfl | rfl) -
  · rfl
  · rfl
  · rfl
  · rfl

/-- The locks of a page. -/
def pageLocks (s : Store) : Option Restrictions :=
  let template : Template := ⟨supply.ids 0, ⟨10⟩, .epoch⟩
  (s.stored.masterTags.map fun rows =>
    MasterTag.locksUnder rows (template.migrationId rulebook.settings.marker page)).toOption

theorem pageLocks_of_matches {known : List ContentKey} {s s' : Store} (h : s.Matches known s') :
    pageLocks s = pageLocks s' := by
  unfold pageLocks
  simp only
  rw [h.locks]

/-- Two locks of a page are set by commands that both find no master tag, and of these the one that is
saved last stays. -/
theorem lost_lock :
    ∃ s', Script.Interleaved false (lockContent.script rulebook) (lockSettings.script rulebook)
        followed s' ∧
      pageLocks s' ≠ pageLocks (lockSettings.after rulebook (lockContent.after rulebook followed)) ∧
      pageLocks s' ≠ pageLocks (lockContent.after rulebook (lockSettings.after rulebook followed)) := by
  have hturns : (Script.takeTurns false [true, false, true, false, true, false]
      (lockContent.script rulebook) (lockSettings.script rulebook) followed).map pageLocks =
        some (some (Restrictions.none.set (.only .settings) true)) := by
    decide +kernel
  obtain ⟨s', hs', hlost⟩ := Option.map_eq_some_iff.1 hturns
  refine ⟨s', Script.interleaved_of_takeTurns hs', ?_⟩
  -- in either order both would be set
  rw [hlost]
  decide +kernel

/-- Two syncs of a page both find no copy, and both make one. -/
theorem copied_twice :
    ∃ s', Script.Interleaved false (syncPage.script rulebook) (syncPage.script rulebook) followed s' ∧
      ¬ s'.CopiesOnce := by
  have hturns : (Script.takeTurns false
      [true, true, true, true, true, false, false, false, false, true, true, true, false, false, false]
      (syncPage.script rulebook) (syncPage.script rulebook) followed).map
        (fun s' => s'.stored.childTags.toOption.map fun rows =>
          decide (rows.map fun c => (c.subscriptionId, c.migrationId)).Nodup) = some (some false) := by
    decide +kernel
  obtain ⟨s', hs', htwice⟩ := Option.map_eq_some_iff.1 hturns
  refine ⟨s', Script.interleaved_of_takeTurns hs', ?_⟩
  rintro ⟨ts, hstored, honce⟩
  rw [hstored] at htwice
  exact of_decide_eq_false (Option.some.inj htwice) honce

/-- If calls may rest on look-ups that no longer hold, commands that take turns need not leave what one
after the other would, nor one copy at most. -/
theorem not_interleaved_serial :
    (¬ ∀ (c d : Task) (s' : Store),
      Script.Interleaved false (c.script rulebook) (d.script rulebook) followed s' →
        ∃ ts, followed.stored = .of ts ∧
          (s'.Matches (ts.childTags.map ChildTag.content)
              (d.after rulebook (c.after rulebook followed)) ∨
            s'.Matches (ts.childTags.map ChildTag.content)
              (c.after rulebook (d.after rulebook followed)))) ∧
    ¬ ∀ (c d : Task) (s' : Store),
      Script.Interleaved false (c.script rulebook) (d.script rulebook) followed s' → s'.CopiesOnce := by
  constructor
  · intro hall
    obtain ⟨s', hinterleaved, hfirst, hsecond⟩ := lost_lock
    obtain ⟨ts, -, hmatches | hmatches⟩ := hall _ _ s' hinterleaved
    · exact hfirst (pageLocks_of_matches hmatches)
    · exact hsecond (pageLocks_of_matches hmatches)
  · intro hall
    obtain ⟨s', hinterleaved, htwice⟩ := copied_twice
    exact htwice (hall _ _ s' hinterleaved)

end Sample

end CourseBlueprint
