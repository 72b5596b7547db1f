import CourseBlueprint.Proofs.Command.Evolution

/-!
# Stores that take writes, and stores that refuse them

Tables in memory may be told to refuse writes (`Store.Refuses`). Every operation that would write then
fails, and leaves the store as it was. Nothing that is requested makes a store that takes writes one
that does not, or one that refuses them one that takes them, and where nothing can be written no row is
added or changed (`Request.writesAs_run`).
-/

namespace CourseBlueprint

namespace Store

variable {α β : Type} {s s' s'' : Store}

/-- Whether writes in memory are refused. -/
def Refuses (s : Store) : Prop :=
  match s.place with
  | .memory m => m.writesFail = true
  | .directory _ => False

/-! ## Refused writes -/

/-- What first asks whether it may write does nothing else. -/
theorem run_onPlace_of_refuses (h : s.Refuses) (f : Unit → Action Memory α) (y : Action Directory α) :
    (onPlace (Memory.checkWritable >>= f) y).run s = (.error .writeRefused, s) := by
  obtain ⟨m | d, p⟩ := s
  · have hrefused : Memory.checkWritable.run m = (.error .writeRefused, m) := by
      rw [run_checkWritable, if_pos (show m.writesFail = true from h)]
    rw [run_onPlace_memory, Action.run_bind_error hrefused]
  · exact absurd h not_false

/-- Work on a child tag fails where it would change the tag. -/
theorem run_updateOnPlace_of_refuses (h : s.Refuses) {rows : List ChildTag}
    (hrows : s.stored.childTags = .ok rows) (content : ContentKey)
    (update : ChildTag → α × Option ChildTag) (y : Action Directory (Option α)) :
    (onPlace (Memory.updateChildTag content update) y).run s =
      ((Tables.childTagIn rows content).elim (.ok none) fun tag =>
        if (update tag).2.isSome then .error .writeRefused else .ok (some (update tag).1), s) := by
  obtain ⟨⟨ts, writesFail, lookups⟩ | d, p⟩ := s
  · obtain rfl : writesFail = true := h
    obtain rfl := Except.ok.inj hrows
    rw [run_onPlace_memory, Memory.updateChildTag,
      Action.run_bind_ok (rfl : (Memory.childTag? _).run _ = _)]
    show _ = ((Option.elim (ts.childTags.find? _) _ _ : Result (Option α)), _)
    cases ts.childTags.find? fun t => t.content = content with
    | none => rfl
    | some tag =>
      simp only [Option.elim_some]
      cases (update tag).2 with
      | none => rfl
      | some tag' => rfl
  · exact absurd h not_false

/-! ## Writing as before -/

/-- A store that takes writes, or refuses them, as another one did. Its rows are others only if it
takes writes. -/
structure WritesAs (s s' : Store) : Prop where
  works : s.Works → s'.Works
  refuses : s.Refuses → s'.Refuses
  kept : s'.stored = s.stored ∨ s'.Works

namespace WritesAs

theorem refl (s : Store) : s.WritesAs s := ⟨id, id, .inl rfl⟩

theorem trans (h : s.WritesAs s') (h' : s'.WritesAs s'') : s.WritesAs s'' := by
  refine ⟨fun hs => h'.works (h.works hs), fun hs => h'.refuses (h.refuses hs), ?_⟩
  rcases h'.kept with hkept | hworks
  · exact h.kept.imp hkept.trans h'.works
  · exact .inr hworks

theorem of_place_eq (h : s'.place = s.place) : s.WritesAs s' := by
  obtain ⟨place, p⟩ := s
  obtain ⟨place', p'⟩ := s'
  obtain rfl : place' = place := h
  exact ⟨id, id, .inl rfl⟩

theorem of_performed {f : Stored → Result (α × Stored)} {r : Result α} (h : Performed s f r s')
    (hrefused : s.Refuses → s' = s) : s.WritesAs s' where
  works hs := (h.works hs).1
  refuses hs := (hrefused hs).symm ▸ hs
  kept := h.kept.imp stored_eq_of_holdings_eq And.right

end WritesAs

/-! ## What operations leave -/

/-- A store with a clock that shows dates, which writes as another one did. -/
structure Steady (s₀ s : Store) : Prop where
  clock : s.supply.ShowsDates
  writes : s₀.WritesAs s

variable {s₀ : Store}

/-- What answers what is performed keeps a store steady, if it does nothing where writes are refused. -/
theorem Steady.of_performed {x : Action Store α} {f : Stored → Result (α × Stored)}
    (hx : ∀ s r s', x.run s = (r, s') → Performed s f r s')
    (hrefused : ∀ s : Store, s.Refuses → (x.run s).2 = s) : Action.Keeps (Steady s₀) x :=
  Action.keeps_iff.2 fun s hs =>
    have hperformed := hx s _ _ (Prod.eta (x.run s)).symm
    ⟨hperformed.supply ▸ hs.clock, hs.writes.trans (.of_performed hperformed (hrefused s))⟩

theorem steady_newId : Action.Keeps (Steady s₀) newId :=
  fun s hs => ⟨(later_afterId s).showsDates hs.clock, hs.writes.trans (.of_place_eq rfl)⟩

theorem steady_now :
    Action.Triple (Steady s₀) now (fun time s => Steady s₀ s ∧ time.IsDate) (Steady s₀) :=
  fun s hs => ⟨⟨(later_afterTime s).showsDates hs.clock, hs.writes.trans (.of_place_eq rfl)⟩, hs.clock _⟩

theorem steady_insertChildTag {t : ChildTag} (ht : t.IsDated) :
    Action.Keeps (Steady s₀) (insertChildTag t) :=
  Steady.of_performed (fun _ _ _ => insertChildTag_performed ht) fun _ hs => by
    rw [insertChildTag, Memory.insertChildTag, run_onPlace_of_refuses hs]

theorem steady_findOrCreateChildTag (subscription : Uuid) (content : ContentKey)
    (migrationId : Option String) :
    Action.Keeps (Steady s₀) (findOrCreateChildTag subscription content migrationId) := by
  refine .bind (keeps_childTag? content) fun found => ?_
  split
  · exact .pure _
  · refine .bind steady_newId fun id => Action.Triple.bind steady_now fun time => ?_
    exact .under fun htime => steady_insertChildTag ⟨htime, htime⟩

theorem steady_updateChildTag {content : ContentKey} {update : ChildTag → α × Option ChildTag}
    (hupdate : RevisesChanges update) : Action.Keeps (Steady s₀) (updateChildTag content update) := by
  refine Action.Triple.bind steady_now fun time => .under fun htime => ?_
  refine Steady.of_performed (fun _ _ _ => updateChildTag_performed (hupdate.isDated_stamped htime))
    fun s hs => ?_
  obtain ⟨m | d, p⟩ := s
  · rw [run_updateOnPlace_of_refuses hs rfl]
  · exact absurd hs not_false

/-- Every operation goes on writing as before. -/
theorem keptByWriting_steady : KeptByWriting (Steady s₀) where
  looking ids := Action.keeps_iff.2 fun s hs => by
    obtain ⟨m | d, p⟩ := s
    · exact ⟨hs.clock, hs.writes.trans ⟨id, id, .inl rfl⟩⟩
    · have hplace : ((Directory.masterTagsOf ids).run d).2 = d := by
        rw [Directory.masterTagsOf, Directory.masterTags, Action.run_read (Directory.run_rows _ d)]
      rw [masterTagsWith, run_onPlace_directory, hplace]
      exact hs
  findOrCreateChildTag := steady_findOrCreateChildTag
  updateChildTag _ _ hupdate := steady_updateChildTag hupdate
  newId := steady_newId
  now := steady_now
  insertTemplate t ht := Steady.of_performed (fun _ _ _ => insertTemplate_performed ht) fun _ hs => by
    rw [insertTemplate, Memory.insertTemplate, run_onPlace_of_refuses hs]
  insertSubscription sub := Steady.of_performed (fun _ _ _ => insertSubscription_performed) fun _ hs => by
    rw [insertSubscription, Memory.insertSubscription, run_onPlace_of_refuses hs]
  saveMasterTag tag := Action.triple_iff.2 fun s hs => by
    have hperformed := saveMasterTag_performed hs.2 (Prod.eta ((saveMasterTag tag).run s)).symm
    refine ⟨hperformed.supply ▸ hs.1.clock,
      hs.1.writes.trans (.of_performed hperformed fun hrefuses => ?_)⟩
    rw [saveMasterTag, Memory.upsertMasterTag, run_onPlace_of_refuses hrefuses]

end Store

/-- A request leaves a store that writes as before. -/
theorem Request.writesAs_run {b : Rulebook} {s : Store} (hclock : s.supply.ShowsDates) (r : Request) :
    s.WritesAs ((r.run b).run s).2 :=
  (Action.keeps_iff.1 (r.keeps_run Store.keptByWriting_steady) s ⟨hclock, .refl s⟩).writes

end CourseBlueprint
