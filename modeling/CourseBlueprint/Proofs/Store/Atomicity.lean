import CourseBlueprint.Proofs.Store.Evolution

/-!
# What a failed operation leaves

An operation that fails leaves the tables as they were, also when it looked something up before. Two
operations in a row may still fail halfway, unless the second cannot fail after the first has
written. This is so for child tags: once a table was written, writing works, and a table of child
tags that was read can be read again (`Store.Secure`). `Store.Atomic` says of an action that it
fails only while nothing was written; it is closed under sequences.
-/

namespace CourseBlueprint

/-- Tables of which those of the master tags are others. -/
def Holdings.withMasterTags (v : Holdings) (rows : List MasterTag) : Holdings :=
  match v with
  | .rows ts => .rows { ts with masterTags := rows }
  | .files templates subscriptions _ childTags =>
    .files templates subscriptions (some (.file (MasterTag.format.encode rows))) childTags

namespace Store

variable {α β : Type} {v : Holdings} {s s' : Store}

/-! ## Looking -/

/-- A store whose tables are as they were, with a clock that shows dates. -/
structure Pristine (v : Holdings) (s : Store) : Prop where
  clock : s.supply.ShowsDates
  held : s.holdings = v

/-- Looking up master tags leaves the tables as they are. -/
theorem pristine_masterTagsWith : KeptByLooking (Pristine v) := by
  refine fun ids => Action.keeps_iff.2 fun s hs => ?_
  have halike : s.Alike ((masterTagsWith ids).run s).2 :=
    Action.keeps_iff.1 (alike_masterTagsWith ids) s (.refl s)
  refine ⟨halike.supply ▸ hs.clock, ?_⟩
  obtain ⟨m | d, p⟩ := s
  · exact hs.held
  · have hplace : ((Directory.masterTagsOf ids).run d).2 = d := by
      rw [Directory.masterTagsOf, Directory.masterTags, Action.run_read (Directory.run_rows _ d)]
    rw [masterTagsWith, run_onPlace_directory, hplace]
    exact hs.held

theorem pristine_newId : Action.Keeps (Pristine v) newId :=
  fun s hs => ⟨(later_afterId s).showsDates hs.clock, hs.held⟩

theorem pristine_now :
    Action.Triple (Pristine v) now (fun time s => Pristine v s ∧ time.IsDate) (Pristine v) :=
  fun s hs => ⟨⟨(later_afterTime s).showsDates hs.clock, hs.held⟩, hs.clock _⟩

/-! ## One write -/

/-- What fails only with the tables as they were. -/
def Spares (v : Holdings) (x : Action Store α) : Prop :=
  Action.Triple (Pristine v) x (fun _ _ => True) fun s => s.holdings = v

theorem Spares.of_keeps {x : Action Store α} (h : Action.Keeps (Pristine v) x) : Spares v x :=
  Action.Triple.mono h (fun _ h => h) (fun _ _ _ => trivial) fun _ h => h.held

/-- What only looks may come before. -/
theorem Spares.bind {x : Action Store α} {f : α → Action Store β}
    (hx : Action.Keeps (Pristine v) x) (hf : ∀ a, Spares v (f a)) : Spares v (x >>= f) :=
  Action.Triple.bind (Action.Triple.mono hx (fun _ h => h) (fun _ _ h => h) fun _ h => h.held) hf

/-- What cannot fail may come after. -/
theorem Spares.map {x : Action Store α} {f : α → β} (hx : Spares v x) :
    Spares v (x >>= fun a => pure (f a)) :=
  Action.Triple.bind hx fun _ => Action.Triple.pure fun _ h => h

theorem Performed.spares {x : Action Store α} {f : Stored → Result (α × Stored)}
    (hx : ∀ s r s', x.run s = (r, s') → Performed s f r s') : Spares v x := by
  intro s hs
  rcases hrun : x.run s with ⟨e | a, s'⟩
  · rcases (hx s _ s' hrun).kept with hkept | ⟨⟨a, ha⟩, -⟩
    · exact hkept.trans hs.held
    · cases ha
  · exact trivial

theorem spares_insertTemplate {t : Template} (ht : t.IsDated) : Spares v (insertTemplate t) :=
  Performed.spares fun _ _ _ h => insertTemplate_performed ht h

theorem spares_insertSubscription (t : Subscription) : Spares v (insertSubscription t) :=
  Performed.spares fun _ _ _ h => insertSubscription_performed h

theorem spares_findOrCreateTemplate (course : Uuid) : Spares v (findOrCreateTemplate course) := by
  refine .bind (keeps_templateOf? course) fun found => ?_
  split
  · exact .of_keeps (.pure _)
  · refine .bind pristine_newId fun id => ?_
    refine Action.Triple.bind (pristine_now.mono (fun _ h => h) (fun _ _ h => h) fun _ h => h.held)
      fun time => .under fun htime => ?_
    exact spares_insertTemplate htime

theorem spares_findOrCreateSubscription (template child : Uuid) :
    Spares v (findOrCreateSubscription template child) := by
  refine .bind pristine_newId fun id => .bind keeps_subscriptions fun rows => ?_
  split
  · exact .of_keeps (.pure _)
  · exact spares_insertSubscription _

/-- Saving a master tag leaves the tables as they were, or it has written that of the master tags. -/
theorem holdings_of_saveMasterTag {t : MasterTag} {r : Result Unit}
    (h : (saveMasterTag t).run s = (r, s')) :
    s'.holdings = s.holdings ∨ r = .ok () ∧ s'.Works ∧ ∃ rows, s.stored.masterTags = .ok rows ∧
      s'.holdings = s.holdings.withMasterTags
        (Tables.upsert (fun row => row.migrationId = t.migrationId) t rows) := by
  obtain ⟨⟨ts, writesFail, lookups⟩ | d, p⟩ := s
  · rw [saveMasterTag, run_onPlace_memory] at h
    obtain ⟨rfl, rfl⟩ := Prod.mk.inj h
    cases writesFail with
    | true => exact .inl rfl
    | false => exact .inr ⟨rfl, rfl, ts.masterTags, rfl, rfl⟩
  · rw [saveMasterTag, run_onPlace_directory] at h
    obtain ⟨rfl, rfl⟩ := Prod.mk.inj h
    have hrevise : Directory.upsertMasterTag t = Directory.revise Directory.masterTagTable fun rows =>
        ((), some (Tables.upsert (fun row => row.migrationId = t.migrationId) t rows)) := rfl
    rw [hrevise]
    rcases Directory.files_of_revise Directory.masterTagTable_sound.not_lockFile (Prod.eta _).symm with
      hsame | ⟨hworks, rows, new, hrows, hnew, hr, hwritten, hother⟩
    · exact .inl (holdings_of_sameFiles p hsame)
    · obtain rfl := Option.some.inj hnew
      refine .inr ⟨hr, hworks, rows, hrows, ?_⟩
      unfold holdings Holdings.withMasterTags
      simp only
      rw [hwritten, hother _ Directory.templateTable_sound.not_lockFile (by decide),
        hother _ Directory.subscriptionTable_sound.not_lockFile (by decide),
        hother _ Directory.childTagTable_sound.not_lockFile (by decide)]
      rfl

theorem spares_saveMasterTag (t : MasterTag) : Spares v (saveMasterTag t) := by
  intro s hs
  rcases hrun : (saveMasterTag t).run s with ⟨e | a, s'⟩
  · rcases holdings_of_saveMasterTag hrun with hheld | ⟨hr, -⟩
    · exact hheld.trans hs.held
    · cases hr
  · exact trivial

/-! ## Several writes -/

/-- A store in which no work on child tags can fail: writing works, and the child tags can be read. -/
structure Secure (s : Store) : Prop where
  works : s.Works
  isOpen : s.isOpen = true
  childTags : ∃ rows, s.stored.childTags = .ok rows

/-- A store whose tables are as they were, or in which no work on child tags can fail. -/
structure Safe (v : Holdings) (s : Store) : Prop where
  clock : s.supply.ShowsDates
  held : s.holdings = v ∨ s.Secure

theorem Pristine.safe (h : Pristine v s) : Safe v s := ⟨h.clock, .inl h.held⟩

/-- What ends in a safe store, or fails with the tables as they were. -/
def Atomic (v : Holdings) (x : Action Store α) : Prop :=
  Action.Triple (Safe v) x (fun _ => Safe v) fun s => s.holdings = v

theorem Atomic.bind {x : Action Store α} {f : α → Action Store β} (hx : Atomic v x)
    (hf : ∀ a, Atomic v (f a)) : Atomic v (x >>= f) := Action.Triple.bind hx hf

theorem Atomic.pure (a : α) : Atomic v (Pure.pure a) := Action.Triple.pure fun _ h => h

theorem atomic_newId : Atomic v newId :=
  fun s hs => ⟨(later_afterId s).showsDates hs.clock,
    hs.held.imp_right fun h => ⟨h.works, h.isOpen, h.childTags⟩⟩

theorem triple_atomic_now : Action.Triple (Safe v) now (fun time s => Safe v s ∧ time.IsDate)
    fun s => s.holdings = v :=
  fun s hs => ⟨⟨(later_afterTime s).showsDates hs.clock,
    hs.held.imp_right fun h => ⟨h.works, h.isOpen, h.childTags⟩⟩, hs.clock _⟩

/-- Child tags that can be read are read. -/
theorem atomic_childTag? (content : ContentKey) : Atomic v (childTag? content) := by
  intro s hs
  rw [run_childTag?]
  rcases hs.held with hheld | hsecure
  · cases s.seen.childTag? content with
    | error e => exact hheld
    | ok found => exact hs
  · obtain ⟨rows, hrows⟩ := hsecure.childTags
    rw [seen_of_isOpen hsecure.isOpen, childTag?_of_rows hrows]
    exact hs

/-- Revising the child tags is atomic. -/
theorem Performed.atomic {x : Action Store β} {f : List ChildTag → β × Option (List ChildTag)}
    (hx : ∀ s r s', x.run s = (r, s') → Performed s (childTagShelf.revise f) r s') :
    Atomic v x := by
  intro s hs
  rcases hrun : x.run s with ⟨e | a, s'⟩
  · have hperformed := hx s _ s' hrun
    rcases hs.held with hheld | hsecure
    · rcases hperformed.kept with hkept | ⟨⟨a, ha⟩, -⟩
      · exact hkept.trans hheld
      · cases ha
    · -- where writing works, only reading could have failed
      obtain ⟨rows, hrows⟩ := hsecure.childTags
      have hfail := (hperformed.works hsecure.works).2 e rfl
      simp only [Shelf.revise, childTagShelf, hrows] at hfail
      cases hfail
  · have hperformed := hx s _ s' hrun
    have hsecure : s'.Works → s'.Secure := by
      intro hworks
      rcases hperformed.ends with ⟨e, he, -⟩ | ⟨b, hf, -, hopen⟩
      · cases he
      · refine ⟨hworks, hopen, ?_⟩
        unfold Shelf.revise at hf
        cases hrows : childTagShelf.rows s.stored with
        | error e => rw [hrows] at hf; cases hf
        | ok rows =>
          rw [hrows] at hf
          obtain ⟨-, hstored⟩ := Prod.mk.inj (Except.ok.inj hf)
          rw [← hstored]
          cases (f rows).2 with
          | none => exact ⟨rows, hrows⟩
          | some new => exact ⟨new, rfl⟩
    refine ⟨hperformed.supply ▸ hs.clock, ?_⟩
    rcases hs.held with hheld | hsecure'
    · rcases hperformed.kept with hkept | ⟨-, hworks⟩
      · exact .inl (hkept.trans hheld)
      · exact .inr (hsecure hworks)
    · exact .inr (hsecure (hperformed.works hsecure'.works).1)

theorem atomic_insertChildTag {t : ChildTag} (ht : t.IsDated) : Atomic v (insertChildTag t) :=
  Performed.atomic fun _ _ _ h => insertChildTag_performed ht h

theorem atomic_findOrCreateChildTag (subscription : Uuid) (content : ContentKey)
    (migrationId : Option String) :
    Atomic v (findOrCreateChildTag subscription content migrationId) := by
  refine .bind (atomic_childTag? content) fun found => ?_
  split
  · exact .pure _
  · refine .bind atomic_newId fun id => ?_
    refine Action.Triple.bind triple_atomic_now fun time => .under fun htime => ?_
    exact atomic_insertChildTag ⟨htime, htime⟩

theorem atomic_updateChildTag {content : ContentKey} {update : ChildTag → α × Option ChildTag}
    (hupdate : RevisesChanges update) : Atomic v (updateChildTag content update) := by
  refine Action.Triple.bind triple_atomic_now fun time => .under fun htime => ?_
  exact Performed.atomic fun _ _ _ h =>
    updateChildTag_performed (hupdate.isDated_stamped htime) h

theorem atomic_removeChanges (content : ContentKey) (columns : NameSet) :
    Atomic v (removeChanges content columns) :=
  .bind (atomic_updateChildTag (revisesChanges_removal columns)) fun _ => .pure _

theorem atomic_mergeChanges (content : ContentKey) (columns : NameSet) :
    Atomic v (mergeChanges content columns) := by
  refine .bind (atomic_updateChildTag (revisesChanges_merging columns)) fun added? => ?_
  split
  · exact .pure _
  · exact .pure _

end Store

end CourseBlueprint
