import CourseBlueprint.Proofs.Command.Moves

/-!
# What requests leave alone

Most requests leave a part of the rows as it was (`Store.Same`): only syncs and edits change child tags
(`Request.childTags_run`).
-/

namespace CourseBlueprint

/-- A store that was left with what another one held, as far as `g` tells it. -/
structure Store.Same {β : Type} (g : Stored → β) (s s' : Store) : Prop where
  supply : s.supply.Later s'.supply
  eq : g s'.stored = g s.stored

namespace Store

variable {α β : Type} {g : Stored → β} {s s' s'' s₀ : Store}

theorem Same.refl (s : Store) : s.Same g s := ⟨.refl _, rfl⟩

theorem Same.trans (h : s.Same g s') (h' : s'.Same g s'') : s.Same g s'' :=
  ⟨h.supply.trans h'.supply, h'.eq.trans h.eq⟩

theorem Same.of_stored_eq (hsupply : s.supply.Later s'.supply) (hstored : s'.stored = s.stored) :
    s.Same g s' := ⟨hsupply, congrArg g hstored⟩

theorem Alike.same (h : s.Alike s') : s.Same g s' := .of_stored_eq (.of_eq h.supply) h.stored

theorem keeps_same_of_alike {x : Action Store α} (h : ∀ s : Store, Action.Keeps s.Alike x) :
    Action.Keeps (s₀.Same g) x :=
  Action.keeps_iff.2 fun s hs => hs.trans (Action.keeps_iff.1 (h s) s (.refl s)).same

theorem same_masterTagsWith (ids : List String) : Action.Keeps (s₀.Same g) (masterTagsWith ids) :=
  keeps_same_of_alike fun _ => alike_masterTagsWith ids

theorem same_newId : Action.Keeps (s₀.Same g) newId :=
  Action.keeps_iff.2 fun s hs => hs.trans (.of_stored_eq (later_afterId s) rfl)

/-- What adds a row to a table leaves what is told of the others. -/
theorem Performed.same_of_insertUnless {shelf : Shelf α} {test : α → Bool} {row : α} {r : Result α}
    (h : Performed s (shelf.revise (Tables.insertUnless test row)) r s')
    (hother : ∀ rows st, g (shelf.put rows st) = g st) : s.Same g s' := by
  refine ⟨.of_eq h.supply, ?_⟩
  rcases h.of_insertUnless with hstored | ⟨-, rows, -, -, hstored⟩
  · rw [hstored]
  · rw [hstored, hother]

theorem same_findOrCreateTemplate (hclock : s₀.supply.ShowsDates)
    (hother : ∀ rows st, g (templateShelf.put rows st) = g st) (course : Uuid) :
    Action.Keeps (s₀.Same g) (findOrCreateTemplate course) := by
  have hnow : Action.Triple (s₀.Same g) now (fun time s => s₀.Same g s ∧ time.IsDate)
      (s₀.Same g) := fun s hs =>
    ⟨hs.trans (.of_stored_eq (later_afterTime s) rfl), hs.supply.showsDates hclock _⟩
  refine .bind (keeps_templateOf? course) fun found => ?_
  split
  · exact .pure _
  · refine .bind same_newId fun id => hnow.bind fun time => .under fun htime => ?_
    refine Action.keeps_iff.2 fun s hs => hs.trans ?_
    have hinserted := insertTemplate_performed (t := ⟨id, course, time⟩) htime (Prod.eta
      ((insertTemplate ⟨id, course, time⟩).run s)).symm
    exact hinserted.same_of_insertUnless hother

theorem same_findOrCreateSubscription
    (hother : ∀ rows st, g (subscriptionShelf.put rows st) = g st) (template child : Uuid) :
    Action.Keeps (s₀.Same g) (findOrCreateSubscription template child) := by
  refine .bind same_newId fun id => ?_
  refine .bind (keeps_subscriptions) fun found => ?_
  split
  · exact .pure _
  · refine Action.keeps_iff.2 fun s hs => hs.trans ?_
    have hinserted := insertSubscription_performed (Prod.eta
      ((insertSubscription ⟨id, template, child⟩).run s)).symm
    exact hinserted.same_of_insertUnless hother

theorem FoundOrCreated.same {subscription : Uuid} {content : ContentKey} {migrationId : Option String}
    {r : Result ChildTag} (h : FoundOrCreated s subscription content migrationId r s')
    (hother : ∀ rows st, g (st.withChildTags rows) = g st) : s.Same g s' := by
  rcases h.ends with ⟨-, -, hstored⟩ | ⟨_, -, -, -, hstored | ⟨_, -, -, -, -, -, -, hstored⟩⟩
  · exact .of_stored_eq h.supply hstored
  · exact .of_stored_eq h.supply hstored
  · exact ⟨h.supply, by rw [hstored, hother]⟩

theorem Updated.same {content : ContentKey} {update : ChildTag → α × Option ChildTag}
    {r : Result (Option α)} (h : Updated s content update r s')
    (hother : ∀ rows st, g (st.withChildTags rows) = g st) : s.Same g s' := by
  refine ⟨h.supply, ?_⟩
  rcases h.ends with ⟨-, -, hstored⟩ | ⟨-, rows, -, hends⟩
  · rw [hstored]
  · split at hends
    · rw [hends.2]
    · obtain ⟨-, hends⟩ := hends
      split at hends
      · rw [hends]
      · obtain ⟨time, hstored⟩ := hends
        rw [hstored, hother]

/-- Work on child tags leaves what is told of the other tables. -/
theorem keptBySaving_same (hclock : s₀.supply.ShowsDates)
    (hother : ∀ rows st, g (st.withChildTags rows) = g st) : KeptBySaving (s₀.Same g) where
  looking := same_masterTagsWith
  findOrCreateChildTag _ _ _ := Action.keeps_iff.2 fun _ hs => hs.trans <|
    (findOrCreateChildTag_spec (hs.supply.showsDates hclock) (Prod.eta _).symm).same hother
  updateChildTag _ _ hupdate := Action.keeps_iff.2 fun _ hs => hs.trans <|
    (updateChildTag_spec hupdate (hs.supply.showsDates hclock) (Prod.eta _).symm).same hother

end Store

namespace Command

variable {β : Type} {g : Stored → β} {b : Rulebook} {s s' s₀ : Store}

theorem same_makeBlueprint (hclock : s₀.supply.ShowsDates)
    (hother : ∀ rows st, g (Store.templateShelf.put rows st) = g st) (course : Uuid) :
    Action.Keeps (s₀.Same g) (makeBlueprint course) := by
  refine .bind (Store.keeps_templateOf? course) fun found => ?_
  split
  · exact .pure _
  · exact .bind (Store.same_findOrCreateTemplate hclock hother course) fun t => .pure _

theorem same_subscribe (hother : ∀ rows st, g (Store.subscriptionShelf.put rows st) = g st)
    (master child : Uuid) : Action.Keeps (s₀.Same g) (subscribe master child) := by
  unfold subscribe
  split
  · exact .fail_bind _ _
  · refine .bind (keeps_templateOf master) fun t => ?_
    exact .bind (Store.same_findOrCreateSubscription hother _ _) fun sub => .pure _

theorem same_setLocks (hready : s.Ready)
    (hother : ∀ rows st, g (Store.masterTagShelf.put rows st) = g st) {course : Uuid}
    {content : ContentKey} {locks : List Lock} {on : Bool} {r : Result Report}
    (h : (setLocks b course content locks on).run s = (r, s')) : s.Same g s' := by
  cases setLocks_ends hready h with
  | failed hlater hopen hstored => exact .of_stored_eq hlater hstored
  | saved hlater hopen hkind ht hrows hfound hold hstored =>
    refine ⟨hlater, ?_⟩
    rw [hstored]
    exact hother _ _

end Command

namespace Request

variable {b : Rulebook} {s s' : Store}

/-- Whether a request works on copies. -/
def worksOnCopies : Request → Bool
  | sync _ _ _ => true
  | edit _ _ _ _ => true
  | _ => false

/-- Requests that do not work on copies leave all child tags as they are. -/
theorem childTags_run (hready : s.Ready) {r : Request} (hr : r.worksOnCopies = false)
    {answer : Result Report} (h : (r.run b).run s = (answer, s')) :
    s'.stored.childTags = s.stored.childTags := by
  have hkeeps : ∀ {x : Action Store Report}, Action.Keeps (s.Same Stored.childTags) x →
      x.run s = (answer, s') → s'.stored.childTags = s.stored.childTags :=
    fun hx hrun => (hx.of_run hrun (.refl s)).eq
  cases r with
  | sync => cases hr
  | edit => cases hr
  | makeBlueprint course =>
    exact hkeeps (Command.same_makeBlueprint hready.clock (fun _ _ => rfl) course) h
  | subscribe master child => exact hkeeps (Command.same_subscribe (fun _ _ => rfl) master child) h
  | setLocks course content locks on => exact (Command.same_setLocks hready (fun _ _ => rfl) h).eq
  | showContent course content =>
    exact hkeeps (Command.keeps_showContent Store.same_masterTagsWith course content) h
  | inspect content =>
    exact hkeeps (Command.keeps_inspect Store.same_masterTagsWith content) h
  | status subscription =>
    exact hkeeps (Command.keeps_status subscription) h
  | preview content =>
    exact hkeeps (Command.keeps_preview Store.same_masterTagsWith content) h
  | listSchemas kind? => exact hkeeps (.pure _) h
  | showConfig => exact hkeeps (.pure _) h

end Request

end CourseBlueprint
