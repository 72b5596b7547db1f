import CourseBlueprint.Proofs.Save.Evolution
import CourseBlueprint.Request

/-!
# What requests do to the store

The requests that only show something leave the store alike. Every request keeps what every operation
of a store keeps (`Request.keeps_run`). So it leads the store along steps, whether it is answered or
fails (`Request.evolves_run`), and so does any list of requests, one after the other
(`Request.evolves_runAll`).
-/

namespace CourseBlueprint

namespace Command

variable {b : Rulebook} {s₀ : Store}

/-! ## Looking -/

section Looking

variable {P : Store → Prop}

theorem keeps_templateOf (course : Uuid) : Action.Keeps P (templateOf course) :=
  .bind (Store.keeps_templateOf? course) fun _ => .liftM _

theorem keeps_template (id : Uuid) : Action.Keeps P (template id) :=
  .bind (Store.keeps_template? id) fun _ => .liftM _

theorem keeps_subscription (id : Uuid) : Action.Keeps P (subscription id) :=
  .bind (Store.keeps_subscription? id) fun _ => .liftM _

theorem keeps_copyTag (content : ContentKey) : Action.Keeps P (copyTag content) :=
  .bind (Store.keeps_childTag? content) fun _ => .liftM _

theorem keeps_savedTag (content : ContentKey) : Action.Keeps P (savedTag content) :=
  .bind (Store.keeps_childTag? content) fun _ => .liftM _

theorem keeps_load (s : Subscription) : Action.Keeps P (Migration.load s) :=
  .bind (Store.keeps_masterTagsOf _) fun _ => .pure _

theorem keeps_status (id : Uuid) : Action.Keeps P (status id) :=
  .bind (keeps_subscription id) fun _ => .bind (Store.keeps_childTagsOf _) fun _ => .pure _

theorem keeps_examine {α : Type} {x : Work α}
    (h : Action.Keeps (fun d : Desk => P d.store) x) (i : Item) : Action.Keeps P (examine i x) :=
  .bind (Work.keeps_on h i) fun _ => .pure _

variable (hP : Store.KeptByLooking P)
include hP

theorem keeps_fill (idOf : Item → Option String) (template? : Option Uuid)
    (give : Restrictions → Item → Item) (items : List Item) :
    Action.Keeps P (Preload.fill idOf template? give items) := by
  unfold Preload.fill
  simp only
  split
  · exact .pure _
  · exact .bind (hP.restrictionsOf _ _) fun _ => .pure _

theorem keeps_masters (course : Uuid) (marker : String) (items : List Item) :
    Action.Keeps P (Preload.masters course marker items) := by
  refine .bind (Store.keeps_templateOf? course) fun found => ?_
  split
  · exact .pure _
  · exact keeps_fill hP _ _ _ _

theorem keeps_showContent (course : Uuid) (content : ContentKey) :
    Action.Keeps P (showContent b course content) := by
  refine .bind (keeps_templateOf course) fun t => ?_
  refine .bind (keeps_masters hP _ _ _) fun found => ?_
  refine .bind (keeps_examine (Rulebook.keeps_summary hP .master) _) fun summary => ?_
  refine .bind (hP.masterTag? _) fun tag => ?_
  split
  · exact .pure _
  · exact .pure _

theorem keeps_inspect (content : ContentKey) : Action.Keeps P (inspect b content) := by
  refine .bind (keeps_copyTag content) fun tag => ?_
  refine .bind (keeps_fill hP _ _ _ _) fun found => ?_
  exact .bind (keeps_examine (Rulebook.keeps_summary hP .child) _) fun summary => .pure _

theorem keeps_preview (content : ContentKey) : Action.Keeps P (preview b content) := by
  refine .bind (keeps_copyTag content) fun tag => ?_
  refine .bind (keeps_subscription _) fun s => ?_
  refine .bind (keeps_load s) fun m => ?_
  refine .bind (keeps_examine ?_ _) fun answer => .pure _
  refine .bind (Rulebook.keeps_keptCategories hP) fun kept => ?_
  split
  · exact .bind (Rulebook.keeps_isRestricted hP .any) fun _ => .pure _
  · exact .bind (.pure _) fun _ => .pure _

end Looking

/-! ## Saving copies -/

section Saving

variable {P : Store → Prop} (hP : Store.KeptBySaving P)
include hP

theorem keeps_saveImported (m : Migration) (i : Item) : Action.Keeps P (saveImported b m i) := by
  refine .bind (Work.keeps_on (Rulebook.keeps_save hP _) i) fun saved => ?_
  obtain ⟨outcome, d⟩ := saved
  cases outcome with
  | saved report => exact .pure _
  | rejected r => exact .fail _

theorem keeps_createCopy (hnew : Action.Keeps P Store.newId) (m : Migration) (kind : Kind)
    (id : String) (assignments : List Assignment) :
    Action.Keeps P (createCopy b m kind id assignments) := by
  refine .bind hnew fun newId => ?_
  refine .bind (keeps_saveImported hP m _) fun saved => ?_
  exact keeps_savedTag _

theorem keeps_edit (content : ContentKey) (changes : Changes) :
    Action.Keeps P (edit b content changes) := by
  refine .bind (keeps_copyTag content) fun tag => ?_
  simp only
  split
  · exact .fail_bind _ _
  · refine .bind (Work.keeps_on (Rulebook.keeps_save hP _) _) fun saved => ?_
    exact .bind (Store.keeps_childTag? content) fun tags => .pure _

end Saving

/-! ## Writing -/

/-- A master tag that is found in a data directory is dated. -/
theorem isDated_of_masterTag? {id : String} {s s' : Store} {tag : MasterTag}
    (h : (Store.masterTag? id).run s = (.ok (some tag), s')) (hplace : s'.directory.isSome = true) :
    tag.IsDated := by
  have hs' := congrArg Prod.snd h
  obtain ⟨m | d, p⟩ := s
  · obtain rfl : _ = s' := hs'
    cases hplace
  · obtain ⟨s'', -, hrun⟩ := Store.run_masterTag? id ⟨.directory d, p⟩
    rw [h] at hrun
    cases hopen : d.isPresent with
    | false =>
      have hseen : Store.seen ⟨.directory d, p⟩ = .of .empty := if_neg (by simp [Store.isOpen, hopen])
      rw [hseen] at hrun
      cases (Prod.mk.inj hrun).1
    | true =>
      rw [Store.seen_of_isOpen (s := ⟨.directory d, p⟩) hopen] at hrun
      have hrows := (Prod.mk.inj hrun).1
      cases hstored : d.stored Directory.masterTagTable with
      | error e =>
        rw [show (Store.stored ⟨.directory d, p⟩).masterTags = _ from hstored] at hrows
        cases hrows
      | ok rows =>
        rw [show (Store.stored ⟨.directory d, p⟩).masterTags = _ from hstored] at hrows
        exact Directory.good_of_stored Directory.masterTagTable_sound hstored tag
          (List.mem_of_find?_eq_some (Except.ok.inj hrows).symm)

section Writing

variable {P : Store → Prop} (hP : Store.KeptByWriting P)
include hP

theorem keeps_makeBlueprint (course : Uuid) : Action.Keeps P (makeBlueprint course) := by
  refine .bind (Store.keeps_templateOf? course) fun found => ?_
  split
  · exact .pure _
  · exact .bind (hP.findOrCreateTemplate course) fun t => .pure _

theorem keeps_subscribe (master child : Uuid) : Action.Keeps P (subscribe master child) := by
  unfold subscribe
  split
  · exact .fail_bind _ _
  · refine .bind (keeps_templateOf master) fun t => ?_
    exact .bind (hP.findOrCreateSubscription _ _) fun s => .pure _

/-- A new master tag is dated. -/
theorem triple_newMasterTag (t : Template) (content : ContentKey) (id : String) :
    Action.Triple P (Store.newMasterTag t content id) (fun tag s => P s ∧ tag.IsDated) P :=
  Action.Triple.bind hP.newId fun _ => Action.Triple.bind hP.now fun _ =>
    Action.Triple.pure fun _ h => ⟨h.1, h.2, h.2⟩

/-- A master tag that is looked up or made is dated where dates are written. -/
theorem triple_masterTagOrNew (t : Template) (content : ContentKey) :
    Action.Triple P (masterTagOrNew b t content)
      (fun tag s => P s ∧ (s.directory.isSome = true → tag.IsDated)) P := by
  intro s hs
  rw [masterTagOrNew, Action.run_bind]
  have hlook := Action.keeps_iff.1 (hP.looking.masterTag? (t.migrationId b.settings.marker content)) s hs
  rcases hrun : (Store.masterTag? (t.migrationId b.settings.marker content)).run s with
    ⟨e | _ | tag, s'⟩
  · rw [hrun] at hlook
    exact hlook
  · rw [hrun] at hlook
    have hnew : Action.Triple P
        (Store.newMasterTag t content (t.migrationId b.settings.marker content))
        (fun tag s => P s ∧ (s.directory.isSome = true → tag.IsDated)) P :=
      (triple_newMasterTag hP t content _).mono (fun _ h => h)
        (fun _ _ h => ⟨h.1, fun _ => h.2⟩) fun _ h => h
    exact hnew s' hlook
  · rw [hrun] at hlook
    exact ⟨hlook, isDated_of_masterTag? hrun⟩

theorem keeps_trackedMasterTag (t : Template) (content : ContentKey) :
    Action.Keeps P (trackedMasterTag b t content) := by
  refine .bind (hP.looking.masterTag? _) fun found => ?_
  split
  · exact .pure _
  · refine Action.Triple.bind (triple_newMasterTag hP t content _) fun tag => ?_
    refine Action.Triple.bind ?_ fun _ => Action.Keeps.pure _
    exact (hP.saveMasterTag tag).mono (fun _ h => ⟨h.1, fun _ => h.2⟩) (fun _ _ h => h) fun _ h => h

theorem keeps_sync (subscriptionId : Uuid) (master : ContentKey)
    (assignments : List Assignment) :
    Action.Keeps P (sync b subscriptionId master assignments) := by
  unfold sync
  split
  · exact .fail_bind _ _
  · refine .bind (keeps_subscription _) fun s => ?_
    refine .bind (keeps_template _) fun t => ?_
    refine .bind (keeps_trackedMasterTag hP t master) fun masterTag => ?_
    refine .bind (Store.keeps_childTagsOf _) fun tags => ?_
    refine .bind (keeps_load s) fun m => ?_
    split
    · exact .bind (keeps_createCopy hP.toKeptBySaving hP.newId m _ _ _) fun tag => .pure _
    · refine .bind (keeps_saveImported hP.toKeptBySaving m _) fun saved => ?_
      exact .bind (keeps_savedTag _) fun tag => .pure _

theorem keeps_setLocks (course : Uuid) (content : ContentKey) (locks : List Lock) (on : Bool) :
    Action.Keeps P (setLocks b course content locks on) := by
  -- between the look-up and the write only the clock is read, so the tag stays dated
  have hnow : ∀ old : MasterTag, Action.Triple
      (fun s => P s ∧ (s.directory.isSome = true → old.IsDated)) Store.now
      (fun time s => P s ∧ (s.directory.isSome = true → old.IsDated) ∧ time.IsDate) P :=
    fun old s hs => ⟨(hP.now s hs.1).1, hs.2, (hP.now s hs.1).2⟩
  unfold setLocks
  simp only
  split
  · exact .fail_bind _ _
  · split
    · exact .fail_bind _ _
    · refine .bind (keeps_templateOf course) fun t => ?_
      refine Action.Triple.bind (triple_masterTagOrNew hP t content) fun old => ?_
      refine (hnow old).bind fun time => ?_
      refine Action.Triple.bind ?_ fun _ => Action.Keeps.pure _
      refine (hP.saveMasterTag _).mono (fun s h => ⟨h.1, fun hplace => ?_⟩) (fun _ _ h => h) fun _ h => h
      exact ⟨(h.2.1 hplace).createdAt, h.2.2⟩

end Writing

/-! ## Evolving -/

section Clock

variable (hclock : s₀.supply.ShowsDates)
include hclock

theorem evolves_trackedMasterTag (t : Template) (content : ContentKey) :
    Action.Keeps s₀.Evolves (trackedMasterTag b t content) :=
  keeps_trackedMasterTag (Store.keptByWriting_evolves hclock) t content

theorem evolves_saveImported (m : Migration) (i : Item) :
    Action.Keeps s₀.Evolves (saveImported b m i) :=
  keeps_saveImported (Store.keptByWriting_evolves hclock).toKeptBySaving m i

theorem evolves_createCopy (m : Migration) (kind : Kind) (id : String)
    (assignments : List Assignment) :
    Action.Keeps s₀.Evolves (createCopy b m kind id assignments) :=
  keeps_createCopy (Store.keptByWriting_evolves hclock).toKeptBySaving Store.evolves_newId m kind id
    assignments

theorem evolves_sync (subscriptionId : Uuid) (master : ContentKey)
    (assignments : List Assignment) :
    Action.Keeps s₀.Evolves (sync b subscriptionId master assignments) :=
  keeps_sync (Store.keptByWriting_evolves hclock) subscriptionId master assignments

end Clock

end Command

/-! ## Requests -/

namespace Request

variable {b : Rulebook} {s₀ : Store}

/-- A request keeps what every operation keeps, whether it is answered or fails. -/
theorem keeps_run {P : Store → Prop} (hP : Store.KeptByWriting P) (r : Request) :
    Action.Keeps P (r.run b) := by
  cases r with
  | makeBlueprint course => exact Command.keeps_makeBlueprint hP course
  | subscribe master child => exact Command.keeps_subscribe hP master child
  | sync subscription master assignments =>
    exact .bind (.liftM _) fun assignments => Command.keeps_sync hP _ _ assignments
  | setLocks course content locks on => exact Command.keeps_setLocks hP course content locks on
  | showContent course content => exact Command.keeps_showContent hP.looking course content
  | inspect content => exact Command.keeps_inspect hP.looking content
  | edit content assignments delete system =>
    exact .bind (.liftM _) fun assignments => Command.keeps_edit hP.toKeptBySaving _ _
  | status subscription => exact Command.keeps_status subscription
  | preview content => exact Command.keeps_preview hP.looking content
  | listSchemas kind? => exact .pure _
  | showConfig => exact .pure _

/-- A request leads the store along steps, whether it is answered or fails. -/
theorem evolves_run (hclock : s₀.supply.ShowsDates) (r : Request) :
    Action.Keeps s₀.Evolves (r.run b) := keeps_run (Store.keptByWriting_evolves hclock) r

/-- The store after several requests, one after the other; a request that fails does not stop the
next one. -/
def runAll (b : Rulebook) (rs : List Request) (s : Store) : Store :=
  rs.foldl (fun s r => ((r.run b).run s).2) s

/-- A run of requests leads the store along steps. -/
theorem evolves_runAll (rs : List Request) {s : Store} (hclock : s.supply.ShowsDates) :
    s.Evolves (runAll b rs s) := by
  unfold runAll
  induction rs generalizing s with
  | nil => exact .refl s
  | cons r rs ih =>
    have hstep : s.Evolves ((r.run b).run s).2 :=
      Action.keeps_iff.1 (evolves_run hclock r) s (.refl s)
    exact hstep.trans (ih (hstep.supply.showsDates hclock))

end Request

end CourseBlueprint
