import Mathlib.Data.List.Induction
import CourseBlueprint.Proofs.Command.Frames
import CourseBlueprint.Proofs.Command.Resync

/-!
# The history of a lock

Only a request to set locks changes locks, and only those of the content that it names
(`Command.locks_setLocks`); every other request leaves all locks as they are (`Request.locks_run`). So
after a run of requests that were all answered, a lock is on exactly if the last request that named it
for this content in this course turned it on (`lockOn_iff_lastSetting`).
-/

namespace CourseBlueprint

/-! ## Locks that are held -/

/-- A master tag that is saved has its locks from then on, and the others have theirs. -/
theorem MasterTag.locksUnder_upsert (rows : List MasterTag) (tag : MasterTag) (id : String) :
    locksUnder (Tables.upsert (fun row => row.migrationId = tag.migrationId) tag rows) id =
      if id = tag.migrationId then tag.restrictions else locksUnder rows id := by
  unfold locksUnder
  rw [Tables.find?_upsert MasterTag.migrationId tag rows id]
  split
  · rfl
  · rfl

/-- A lock is on under an identifier if it is on for the tag that has it. -/
theorem MasterTag.isOn_locksUnder_iff {rows : List MasterTag}
    (h : (rows.map MasterTag.migrationId).Nodup) {id : String} {l : Lock} :
    (locksUnder rows id).isOn l = true ↔
      ∃ m ∈ rows, m.migrationId = id ∧ m.restrictions.isOn l = true := by
  unfold locksUnder
  cases hfind : rows.find? fun row => row.migrationId = id with
  | none =>
    have hoff : ¬ (Restrictions.none.get? l).getD false = true := by
      rw [Restrictions.get?_none]
      decide
    refine ⟨fun hon => absurd hon hoff, ?_⟩
    rintro ⟨m, hm, hid, -⟩
    exact absurd (decide_eq_true hid) (List.find?_eq_none.1 hfind m hm)
  | some m =>
    obtain ⟨hm, hid⟩ := (Tables.find?_eq_some_iff h).1 hfind
    refine ⟨fun hon => ⟨m, hm, hid, hon⟩, ?_⟩
    rintro ⟨m', hm', hid', hon⟩
    obtain rfl := Tables.eq_of_nodup_map h hm hm' (hid.trans hid'.symm)
    exact hon

/-- The locks that are held, by migration identifier. -/
def Stored.locks (st : Stored) : Result (String → Restrictions) :=
  st.masterTags.map MasterTag.locksUnder

theorem Stored.locks_of_rows {st : Stored} {rows : List MasterTag} (h : st.masterTags = .ok rows) :
    st.locks = .ok (MasterTag.locksUnder rows) := by
  rw [locks, h]
  rfl

/-! ## Locks and requests -/

/-- A save leaves all locks alone. -/
theorem Store.keptBySaving_locks {s₀ : Store} (hclock : s₀.supply.ShowsDates) :
    KeptBySaving (s₀.Same Stored.locks) := keptBySaving_same hclock fun _ _ => rfl

namespace Command

variable {b : Rulebook} {s s' s₀ : Store}

theorem Tracked.sameLocks {t : Template} {content : ContentKey} {r : Result MasterTag}
    (h : Tracked b s t content r s') : s.Same Stored.locks s' := by
  cases h with
  | failed hlater hopen hstored => exact .of_stored_eq hlater hstored
  | found halike => exact halike.same
  | @made rows tag _ hlater hopen hrows hnew htemplate hcontent hid hrestrictions hstored hheld =>
    have hrows' : s'.stored.masterTags = .ok (rows ++ [tag]) := by rw [hstored]
    refine ⟨hlater, ?_⟩
    rw [Stored.locks_of_rows hrows, Stored.locks_of_rows hrows']
    have hmade : Tracked b s t content (.ok tag) s' :=
      .made hlater hopen hrows hnew htemplate hcontent hid hrestrictions hstored hheld
    exact congrArg Except.ok (funext (hmade.locksUnder hrows hrows'))

theorem sameLocks_sync (hready : s.Ready) {id : Uuid} {master : ContentKey}
    {assignments : List Assignment} {r : Result Report}
    (h : (sync b id master assignments).run s = (r, s')) : s.Same Stored.locks s' := by
  cases sync_ends h with
  | stopped => exact .refl s
  | untracked hkind hsub ht htracked => exact (tracked hready htracked).sameLocks
  | unread hkind hsub ht htracked => exact (tracked hready htracked).sameLocks
  | @copied sub t masterTag tags m s₁ _ made hbegun hnone hmade =>
    exact (keeps_createCopy (Store.keptBySaving_locks hready.clock) Store.same_newId m _ _ _).of_run hmade
      (tracked hready hbegun.tracked).sameLocks
  | @resynced sub t masterTag tags m s₁ _ existing saved hbegun hexisting hsaved =>
    exact (keeps_saveImported (Store.keptBySaving_locks hready.clock) m _).of_run hsaved
      (tracked hready hbegun.tracked).sameLocks

/-- Setting locks fails and changes none, or it sets those of the content in the template of the course
and no others. -/
theorem locks_setLocks (hready : s.Ready) {course : Uuid} {content : ContentKey} {locks : List Lock}
    {on : Bool} {r : Result Report}
    (h : (setLocks b course content locks on).run s = (r, s')) :
    (∃ e, r = .error e) ∧ s.Same Stored.locks s' ∨
      ∃ t held, s.stored.HasTemplate t ∧ t.courseId = course ∧ s.stored.locks = .ok held ∧
        s'.stored.locks = .ok fun id =>
          if id = t.migrationId b.settings.marker content then
            locks.foldl (fun r l => r.set l on) (held id)
          else held id := by
  cases setLocks_ends hready h with
  | failed hlater hopen hstored => exact .inl ⟨⟨_, rfl⟩, .of_stored_eq hlater hstored⟩
  | @saved t rows found old time _ _ hlater hopen hkind ht hrows hfound hold hstored =>
    obtain ⟨-, templates, htemplates, hfind⟩ := of_templateOf ht
    have hheld : s.stored.HasTemplate t :=
      ⟨templates, by rw [← hready.shown, htemplates], List.mem_of_find?_eq_some hfind⟩
    have hcourse : t.courseId = course := by simpa using List.find?_some hfind
    -- the tag that is saved is the one that was found, or a new one without locks
    have hid : old.migrationId = t.migrationId b.settings.marker content := by
      rcases hold with rfl | ⟨-, -, -, hid, -⟩
      · simpa using List.find?_some hfound
      · exact hid
    have hlocks : old.restrictions =
        MasterTag.locksUnder rows (t.migrationId b.settings.marker content) := by
      unfold MasterTag.locksUnder
      rw [hfound]
      rcases hold with rfl | ⟨rfl, -, -, -, hnone⟩
      · rfl
      · exact hnone
    refine .inr ⟨t, MasterTag.locksUnder rows, hheld, hcourse, Stored.locks_of_rows hrows, ?_⟩
    rw [hstored, Stored.locks_of_rows rfl]
    refine congrArg Except.ok (funext fun id => ?_)
    refine (MasterTag.locksUnder_upsert rows { old with
      restrictions := locks.foldl (fun r l => r.set l on) old.restrictions
      updatedAt := time } id).trans ?_
    show (if id = old.migrationId then _ else _) = _
    rw [hid]
    split
    · next heq => rw [heq, hlocks]
    · rfl

end Command

namespace Request

variable {b : Rulebook} {s s' : Store}

/-- How a request sets a lock of blueprint content of a course, if it does. -/
def setting (course : Uuid) (content : ContentKey) (l : Lock) : Request → Option Bool
  | setLocks course' content' locks on =>
    if course' = course ∧ content' = content ∧ l ∈ locks then some on else none
  | _ => none

/-- A request that is answered changes no lock, or it is a request to set locks, which it does for the
content that it names in the template of the course that it names. -/
theorem locks_run (hready : s.Ready) (r : Request) {report : Report}
    (h : (r.run b).run s = (.ok report, s')) :
    s'.stored.locks = s.stored.locks ∧ (∀ course content l, r.setting course content l = none) ∨
      ∃ course content locks on, r = .setLocks course content locks on ∧
        ∃ t held, s.stored.HasTemplate t ∧ t.courseId = course ∧ s.stored.locks = .ok held ∧
          s'.stored.locks = .ok fun id =>
            if id = t.migrationId b.settings.marker content then
              locks.foldl (fun r l => r.set l on) (held id)
            else held id := by
  have hsame : ∀ {x : Action Store Report}, Action.Keeps (s.Same Stored.locks) x →
      x.run s = (.ok report, s') → s'.stored.locks = s.stored.locks :=
    fun hkeeps hrun => (hkeeps.of_run hrun (.refl s)).eq
  cases r with
  | makeBlueprint course =>
    exact .inl ⟨hsame (Command.same_makeBlueprint hready.clock (fun _ _ => rfl) course) h,
      fun _ _ _ => rfl⟩
  | subscribe master child =>
    exact .inl ⟨hsame (Command.same_subscribe (fun _ _ => rfl) master child) h, fun _ _ _ => rfl⟩
  | sync subscription master texts =>
    obtain ⟨assignments, s₁, hread, hsync⟩ := Action.run_bind_eq_ok.1 h
    obtain ⟨-, rfl⟩ := Action.run_liftM_eq_ok.1 hread
    exact .inl ⟨(Command.sameLocks_sync hready hsync).eq, fun _ _ _ => rfl⟩
  | setLocks course content locks on =>
    rcases Command.locks_setLocks hready h with ⟨⟨e, he⟩, -⟩ | hset
    · cases he
    · exact .inr ⟨course, content, locks, on, rfl, hset⟩
  | showContent course content =>
    exact .inl
      ⟨hsame (Command.keeps_showContent Store.same_masterTagsWith course content) h,
        fun _ _ _ => rfl⟩
  | inspect content =>
    exact .inl
      ⟨hsame (Command.keeps_inspect Store.same_masterTagsWith content) h,
        fun _ _ _ => rfl⟩
  | edit content texts delete system =>
    have hedit : Action.Keeps (s.Same Stored.locks)
        ((Request.edit content texts delete system).run b) :=
      .bind (.liftM _) fun assignments =>
        Command.keeps_edit (Store.keptBySaving_locks hready.clock) content _
    exact .inl ⟨hsame hedit h, fun _ _ _ => rfl⟩
  | status subscription =>
    exact .inl
      ⟨hsame (Command.keeps_status subscription) h,
        fun _ _ _ => rfl⟩
  | preview content =>
    exact .inl
      ⟨hsame (Command.keeps_preview Store.same_masterTagsWith content) h,
        fun _ _ _ => rfl⟩
  | listSchemas kind? => exact .inl ⟨hsame (.pure _) h, fun _ _ _ => rfl⟩
  | showConfig => exact .inl ⟨hsame (.pure _) h, fun _ _ _ => rfl⟩

/-- How the last request that sets a lock of blueprint content of a course sets it, if there is one. -/
def lastSetting (rs : List Request) (course : Uuid) (content : ContentKey) (l : Lock) :
    Option Bool :=
  rs.foldl (fun last r => (r.setting course content l).or last) none

theorem lastSetting_append_singleton (rs : List Request) (r : Request) (course : Uuid)
    (content : ContentKey) (l : Lock) : lastSetting (rs ++ [r]) course content l =
      (r.setting course content l).or (lastSetting rs course content l) := by
  unfold lastSetting
  rw [List.foldl_append]
  rfl

/-- Whether each of several requests is answered, one after the other. -/
def allAnswered (b : Rulebook) : List Request → Store → Bool
  | [], _ => true
  | r :: rs, s => ((r.run b).run s).1.toOption.isSome && allAnswered b rs ((r.run b).run s).2

theorem allAnswered_append {rs rs' : List Request} :
    allAnswered b (rs ++ rs') s = (allAnswered b rs s && allAnswered b rs' (runAll b rs s)) := by
  induction rs generalizing s with
  | nil => rfl
  | cons r rs ih =>
    rw [List.cons_append, allAnswered, allAnswered, ih, Bool.and_assoc]
    rfl

theorem runAll_append (rs rs' : List Request) (s : Store) :
    runAll b (rs ++ rs') s = runAll b rs' (runAll b rs s) := List.foldl_append

theorem runAll_eq_runEvents (rs : List Request) (s : Store) :
    runAll b rs s = runEvents b (rs.map Event.request) s := by
  unfold runAll runEvents
  rw [List.foldl_map]
  rfl

theorem moves_runAll {asked : ContentKey → Prop} (hready : s.Ready) (rs : List Request)
    (hasked : ∀ r ∈ rs, ∀ k ∈ r.masters, asked k) : s.Moves b asked (runAll b rs s) := by
  rw [runAll_eq_runEvents]
  refine moves_runEvents hready _ fun e he => ?_
  obtain ⟨r, hr, rfl⟩ := List.mem_map.1 he
  exact hasked r hr

end Request

/-! ## Runs of requests -/

theorem Restrictions.isOn_foldl_set (locks : List Lock) (on : Bool) (r : Restrictions) (l : Lock) :
    (locks.foldl (fun r l => r.set l on) r).isOn l = if l ∈ locks then on else r.isOn l := by
  induction locks generalizing r with
  | nil => rfl
  | cons l' locks ih =>
    rw [List.foldl_cons, ih]
    unfold isOn
    rw [get?_set]
    by_cases hl : l = l'
    · simp [hl]
    · simp [hl]

/-- In sound tables, a migration identifier tells the blueprint course and the content, if digests
differ. -/
theorem Tables.Sound.migrationId_eq_iff {b : Rulebook} {ts : Tables} {asked : ContentKey → Prop}
    (h : ts.Sound b) (hdistinct : Distinguishes asked ts.templates) {t t' : Template}
    {k k' : ContentKey} (ht : t ∈ ts.templates) (ht' : t' ∈ ts.templates) (hk : asked k)
    (hk' : asked k') :
    t.migrationId b.settings.marker k = t'.migrationId b.settings.marker k' ↔
      t'.courseId = t.courseId ∧ k' = k := by
  constructor
  · intro hid
    obtain ⟨hsame, hdigest⟩ := Template.migrationId_inj hid
    obtain rfl := eq_of_nodup_map h.templateIds ht ht' hsame
    exact ⟨rfl, (hdistinct t ht k k' hk hk' hdigest).symm⟩
  · rintro ⟨hcourse, rfl⟩
    rw [eq_of_nodup_map h.templateCourses ht' ht hcourse]

namespace Store

/-- Whether a master tag of blueprint content is held on which a lock is on. -/
def LockOn (b : Rulebook) (s : Store) (t : Template) (content : ContentKey) (l : Lock) : Prop :=
  ∃ m, s.stored.HasMasterTag m ∧ m.migrationId = t.migrationId b.settings.marker content ∧
    m.restrictions.isOn l = true

variable {b : Rulebook} {s : Store} {t : Template} {content : ContentKey} {l : Lock}

theorem lockOn_iff (hkeyed : s.Keyed b) {held : String → Restrictions}
    (hlocks : s.stored.locks = .ok held) :
    s.LockOn b t content l ↔ (held (t.migrationId b.settings.marker content)).isOn l = true := by
  obtain ⟨ts, hstored, hts⟩ := hkeyed
  have hrows : s.stored.masterTags = .ok ts.masterTags := by rw [hstored]; rfl
  rw [Stored.locks_of_rows hrows] at hlocks
  obtain rfl := Except.ok.inj hlocks
  rw [MasterTag.isOn_locksUnder_iff hts.migrationIds]
  constructor
  · rintro ⟨m, ⟨rows, hrows', hm⟩, hid, hon⟩
    rw [hrows] at hrows'
    obtain rfl := Except.ok.inj hrows'
    exact ⟨m, hm, hid, hon⟩
  · rintro ⟨m, hm, hid, hon⟩
    exact ⟨m, ⟨_, hrows, hm⟩, hid, hon⟩

end Store

section History

variable {b : Rulebook} {s : Store} {t : Template} {content : ContentKey}

/-- What a run of answered requests leaves of a lock, if its templates are among those of tables that
are sound. The induction is on the last request, whose template is held before it. -/
theorem isOn_locks_runAll {asked : ContentKey → Prop} {ts : Tables} (hready : s.Ready)
    (hempty : s.stored = .of .empty) (hsound : ts.Sound b)
    (hdistinct : Tables.Distinguishes asked ts.templates) (ht : t ∈ ts.templates)
    (hcontent : asked content) (l : Lock) (rs : List Request)
    (hasked : ∀ r ∈ rs, ∀ k ∈ r.masters, asked k) (hanswered : Request.allAnswered b rs s = true)
    (htemplates : ∀ t', (Request.runAll b rs s).stored.HasTemplate t' → t' ∈ ts.templates) :
    ∃ held, (Request.runAll b rs s).stored.locks = .ok held ∧
      (held (t.migrationId b.settings.marker content)).isOn l =
        (Request.lastSetting rs t.courseId content l).getD false := by
  induction rs using List.reverseRecOn with
  | nil =>
    refine ⟨_, Stored.locks_of_rows (congrArg Stored.masterTags hempty), ?_⟩
    show (Restrictions.none.get? l).getD false = false
    rw [Restrictions.get?_none]
    rfl
  | append_singleton rs r ih =>
    have hearlier : ∀ r' ∈ rs, ∀ k ∈ r'.masters, asked k :=
      fun r' hr' => hasked r' (List.mem_append_left _ hr')
    have hready₁ : (Request.runAll b rs s).Ready :=
      (Request.moves_runAll (b := b) hready rs hearlier).ready hready
    have hmove : (Request.runAll b rs s).Moves b asked (Request.runAll b (rs ++ [r]) s) := by
      rw [Request.runAll_append]
      refine Request.moves_runAll hready₁ [r] fun r' hr' => ?_
      exact hasked r' (List.mem_append_right _ hr')
    rw [Request.allAnswered_append, Bool.and_eq_true] at hanswered
    obtain ⟨hanswered, hlast⟩ := hanswered
    have hheld : ∀ t', (Request.runAll b rs s).stored.HasTemplate t' → t' ∈ ts.templates :=
      fun t' ht' => htemplates t' (hmove.hasTemplate ht')
    obtain ⟨held, hlocks, hon⟩ := ih hearlier hanswered hheld
    obtain ⟨report, hreport⟩ : ∃ report, ((r.run b).run (Request.runAll b rs s)).1 = .ok report := by
      have hsome : ((r.run b).run (Request.runAll b rs s)).1.toOption.isSome = true := by
        simpa [Request.allAnswered] using hlast
      obtain ⟨report, hreport⟩ := Option.isSome_iff_exists.1 hsome
      exact ⟨report, Result.toOption_eq_some.1 hreport⟩
    have hrun : (r.run b).run (Request.runAll b rs s) =
        (.ok report, Request.runAll b (rs ++ [r]) s) := by
      rw [Request.runAll_append]
      exact Prod.ext hreport rfl
    rw [Request.lastSetting_append_singleton]
    rcases Request.locks_run hready₁ r hrun with ⟨hsame, hnone⟩ |
      ⟨course, content', locks, on, rfl, t', held', ht', hcourse, hheld', hset⟩
    · rw [hnone]
      exact ⟨held, hsame.trans hlocks, hon⟩
    · rw [hlocks] at hheld'
      obtain rfl := Except.ok.inj hheld'
      refine ⟨_, hset, ?_⟩
      have hcontent' : asked content' :=
        hasked _ (List.mem_append_right _ List.mem_cons_self) content' List.mem_cons_self
      have hnamed : t.migrationId b.settings.marker content =
          t'.migrationId b.settings.marker content' ↔ course = t.courseId ∧ content' = content := by
        rw [← hcourse]
        exact hsound.migrationId_eq_iff hdistinct ht (hheld t' ht') hcontent hcontent'
      simp only [Request.setting]
      by_cases hid : t.migrationId b.settings.marker content =
          t'.migrationId b.settings.marker content'
      · obtain ⟨hcourse', hcontent''⟩ := hnamed.1 hid
        rw [if_pos hid, Restrictions.isOn_foldl_set, hon]
        by_cases hl : l ∈ locks
        · rw [if_pos hl, if_pos ⟨hcourse', hcontent'', hl⟩]
          rfl
        · rw [if_neg hl, if_neg fun h => hl h.2.2]
          rfl
      · rw [if_neg hid, if_neg fun h => hid (hnamed.2 ⟨h.1, h.2.1⟩), hon]
        rfl

/-- After a run of requests on a store that was empty, all of them answered, a lock of blueprint
content is on exactly if the last request that set it turned it on; and no request of the run that does
not set it has changed it. -/
theorem lockOn_iff_lastSetting (b : Rulebook) (rs : List Request) (hclock : s.supply.ShowsDates)
    (hempty : s.stored = .of .empty) (hanswered : Request.allAnswered b rs s = true)
    (hfresh : (Request.runAll b rs s).supply.Fresh)
    (hdistinct : (Request.runAll b rs s).Distinguishes fun k =>
      k = content ∨ ∃ r ∈ rs, k ∈ r.masters)
    (ht : (Request.runAll b rs s).stored.HasTemplate t) (l : Lock) :
    ((Request.runAll b rs s).LockOn b t content l ↔
      Request.lastSetting rs t.courseId content l = some true) ∧
    ∀ before r after, rs = before ++ r :: after → r.setting t.courseId content l = none →
      ((Request.runAll b (before ++ [r]) s).LockOn b t content l ↔
        (Request.runAll b before s).LockOn b t content l) := by
  have hready : s.Ready := Store.ready_of_empty hclock hempty
  -- the tables in the end are sound, and they hold all templates that there were before
  obtain ⟨ts, hstored, -, hsound⟩ : ∃ ts, (Request.runAll b rs s).stored = .of ts ∧
      (Request.runAll b rs s).seen = .of ts ∧ ts.Sound b := by
    rw [Request.runAll_eq_runEvents] at hfresh hdistinct ⊢
    refine runEvents_sound b _ hclock hempty hfresh fun t' ht' k k' hk hk' => ?_
    have hasked : ∀ k, (∃ e ∈ rs.map Event.request, k ∈ e.masters) →
        k = content ∨ ∃ r ∈ rs, k ∈ r.masters := by
      rintro k ⟨e, he, hk⟩
      obtain ⟨r, hr, rfl⟩ := List.mem_map.1 he
      exact .inr ⟨r, hr, hk⟩
    exact hdistinct t' ht' k k' (hasked k hk) (hasked k' hk')
  have hfinal : ∀ t', (Request.runAll b rs s).stored.HasTemplate t' → t' ∈ ts.templates := by
    rintro t' ⟨rows, hrows, ht'⟩
    rw [hstored] at hrows
    obtain rfl := Except.ok.inj hrows
    exact ht'
  have hheld : ∀ t' ∈ ts.templates, (Request.runAll b rs s).stored.HasTemplate t' :=
    fun t' ht' => ⟨ts.templates, by rw [hstored]; rfl, ht'⟩
  have hstart : ∀ rs₁ rs₂, rs = rs₁ ++ rs₂ → ((Request.runAll b rs₁ s).LockOn b t content l ↔
      Request.lastSetting rs₁ t.courseId content l = some true) := by
    rintro rs₁ rs₂ rfl
    have hasked : ∀ r ∈ rs₁ ++ rs₂, ∀ k ∈ r.masters,
        k = content ∨ ∃ r ∈ rs₁ ++ rs₂, k ∈ r.masters := fun r hr k hk => .inr ⟨r, hr, hk⟩
    have hmoves := Request.moves_runAll (b := b) hready rs₁
      fun r hr => hasked r (List.mem_append_left _ hr)
    have hrest := Request.moves_runAll (b := b) (hmoves.ready hready) rs₂
      fun r hr => hasked r (List.mem_append_right _ hr)
    rw [← Request.runAll_append] at hrest
    rw [Request.allAnswered_append, Bool.and_eq_true] at hanswered
    obtain ⟨held, hlocks, hon⟩ := isOn_locks_runAll hready hempty hsound
      (fun t' ht' => hdistinct t' (hheld t' ht')) (hfinal t ht) (.inl rfl) l rs₁
      (fun r hr => hasked r (List.mem_append_left _ hr)) hanswered.1
      fun t' ht' => hfinal t' (hrest.hasTemplate ht')
    rw [Store.lockOn_iff (hmoves.keyed ⟨.empty, hempty, Tables.keyed_empty b⟩) hlocks, hon]
    cases Request.lastSetting rs₁ t.courseId content l with
    | none => simp
    | some on => simp
  refine ⟨hstart rs [] (List.append_nil rs).symm, ?_⟩
  intro before r after hrs hnone
  rw [hstart (before ++ [r]) after (by rw [hrs, List.append_assoc]; rfl), hstart before _ hrs,
    Request.lastSetting_append_singleton, hnone]
  rfl

end History

namespace Sample

/-- The content of a page is locked, unlocked together with everything, and locked again, with a sync
and an edit of the copy in between. -/
def lockAgain : List Request :=
  [.makeBlueprint ⟨10⟩, .subscribe ⟨10⟩ ⟨4⟩, .setLocks ⟨10⟩ page [.only .content] true,
    .sync (supply.ids 1) page [], .setLocks ⟨10⟩ page [.everything, .only .content] false,
    .edit ⟨.wikiPage, supply.ids 3⟩ ["body=new"] false false,
    .setLocks ⟨10⟩ page [.only .content] true, .preview ⟨.wikiPage, supply.ids 3⟩]

/-- The template of the course. -/
def madeTemplate : Template := ⟨supply.ids 0, ⟨10⟩, .epoch⟩

theorem masters_lockAgain : ∀ r ∈ lockAgain, ∀ k ∈ r.masters, k = page := by decide

theorem fresh_lockAgain :
    (Request.runAll rulebook lockAgain (.inMemory supply)).supply.Fresh := by
  have hready : (Store.inMemory supply).Ready := Store.ready_of_empty showsDates_supply rfl
  have hused : (Request.runAll rulebook lockAgain (.inMemory supply)).supply.idsUsed ≤ 16 := by
    decide +kernel
  exact fresh_of_later (Request.moves_runAll hready lockAgain masters_lockAgain).supply hused

theorem hasTemplate_lockAgain :
    (Request.runAll rulebook lockAgain (.inMemory supply)).stored.HasTemplate madeTemplate :=
  ⟨[madeTemplate], Result.toOption_eq_some.1 (by decide +kernel), List.mem_cons_self⟩

/-- In the end the content is locked, and what locks everything is not. -/
theorem lockOn_lockAgain :
    (Request.runAll rulebook lockAgain (.inMemory supply)).LockOn rulebook madeTemplate page
      (.only .content) ∧
    ¬ (Request.runAll rulebook lockAgain (.inMemory supply)).LockOn rulebook madeTemplate page
      .everything := by
  have hanswered : Request.allAnswered rulebook lockAgain (.inMemory supply) = true := by
    decide +kernel
  have hdistinct : (Request.runAll rulebook lockAgain (.inMemory supply)).Distinguishes fun k =>
      k = page ∨ ∃ r ∈ lockAgain, k ∈ r.masters := by
    have hpage : ∀ k, (k = page ∨ ∃ r ∈ lockAgain, k ∈ r.masters) → k = page := by
      rintro k (hk | ⟨r, hr, hk⟩)
      · exact hk
      · exact masters_lockAgain r hr k hk
    intro t _ k k' hk hk' _
    rw [hpage k hk, hpage k' hk']
  have hiff := fun l => (lockOn_iff_lastSetting rulebook lockAgain showsDates_supply rfl hanswered
    fresh_lockAgain hdistinct hasTemplate_lockAgain l).1
  rw [hiff, hiff]
  decide

end Sample

end CourseBlueprint
