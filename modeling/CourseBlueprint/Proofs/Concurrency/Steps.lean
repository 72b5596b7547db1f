import CourseBlueprint.Proofs.Concurrency.Calls

/-!
# The steps of locking and syncing

What a command has to do is a function of the tables that it starts from (`Task.todo`). Its script
`Achieves` that: each call succeeds and is a step of what there is to do, also if other commands make
calls in between, as long as what the call takes for granted holds. So a script that runs alone does
all that there is to do (`Script.run_of_achieves`), and two scripts that take turns do what one after
the other would (`Script.serial_of_interleaved`).
-/

namespace CourseBlueprint

open Reconciliation (Plan)

/-! ## What a sync overrules -/

namespace Command

/-- The tag of a copy of a kind that was deleted in the child course. -/
def deletedTag (kind : Kind) : ChildTag :=
  ⟨⟨0⟩, ⟨0⟩, ⟨kind, ⟨0⟩⟩, none, (∅ : NameSet).insert manuallyDeleted, .epoch, .epoch⟩

/-- What is wanted of a copy that was deleted is the same for all copies of a kind, but for the key. -/
theorem copyWanted_of_deleted {tag : ChildTag} (h : tag.isManuallyDeleted = true)
    (assignments : List Assignment) :
    copyWanted tag assignments =
      { copyWanted (deletedTag tag.content.kind) assignments with
        key := tag.content, migrationId := tag.migrationId } := by
  have hdeleted : (deletedTag tag.content.kind).isManuallyDeleted = true :=
    decide_eq_true (NameSet.mem_insert.2 (.inl rfl))
  have hwanted : ∀ tag : ChildTag, tag.isManuallyDeleted = true →
      copyWanted tag assignments =
        ((copyItem tag ((∅ : Dict Json).put tag.content.kind.stateColumn
          (.string Item.deletedState))).set tag.content.kind.stateColumn
            (.string Item.activeState)).setAll assignments := by
    intro tag h
    unfold copyWanted copyBefore
    simp only [h, if_true]
    rfl
  let rekey : Item → Item := fun i => { i with key := tag.content, migrationId := tag.migrationId }
  have hrekey : ∀ (i : Item) as ps, rekey { i with attributes := as, pending := ps } =
      { rekey i with attributes := as, pending := ps } := fun _ _ _ => rfl
  rw [hwanted tag h, hwanted _ hdeleted]
  show _ = rekey _
  rw [← Item.setAll_comm hrekey, ← Item.set_comm hrekey]
  rfl

/-- Whether a sync with assignments is to bring back a copy that was deleted. -/
def undeletes (kind : Kind) (assignments : List Assignment) : Bool :=
  Plan.isUndelete (copyWanted (deletedTag kind) assignments)

theorem undeletes_of_deleted {tag : ChildTag} (h : tag.isManuallyDeleted = true)
    (assignments : List Assignment) :
    Plan.isUndelete (copyWanted tag assignments) = undeletes tag.content.kind assignments := by
  have hkey := key_copyWanted (deletedTag tag.content.kind) assignments
  rw [copyWanted_of_deleted h, undeletes, Plan.isUndelete, Plan.isUndelete, Item.stateColumn,
    Item.stateColumn, hkey]
  rfl

/-- Whether a sync removes a recorded change: its column lies in a category with a lock of its own, or
it stands for a deletion that is to be taken back where anything is restricted. -/
def Overrules (b : Rulebook) (r : Restrictions) (kind : Kind) (assignments : List Assignment)
    (x : String) : Prop :=
  (∃ g, x ∈ (b.registry kind).columns g ∧ r.isLocked g = true) ∨
    x = manuallyDeleted ∧ undeletes kind assignments = true ∧
      r.restrict (b.registry kind) .any = true

instance (b : Rulebook) (r : Restrictions) (kind : Kind) (assignments : List Assignment) (x : String) :
    Decidable (Overrules b r kind assignments x) :=
  have : Decidable (∃ g, x ∈ (b.registry kind).columns g ∧ r.isLocked g = true) :=
    decidable_of_iff (∃ g ∈ Category.all, x ∈ (b.registry kind).columns g ∧ r.isLocked g = true)
      ⟨fun ⟨g, _, hg⟩ => ⟨g, hg⟩, fun ⟨g, hg⟩ => ⟨g, g.mem_all, hg⟩⟩
  inferInstanceAs (Decidable (_ ∨ _))

/-- Of the changes recorded for a copy a sync removes those that it overrules, also if it made its plan
when there were more. -/
theorem mem_diff_forget {b : Rulebook} {m : Migration} {listed found c : ChildTag} {key : String}
    {assignments : List Assignment} (hid : listed.migrationId = some key)
    (hlisted : ∀ x ∈ found.changes, x ∈ listed.changes)
    (hless : ∀ x ∈ c.changes, x ∈ found.changes) {x : String} :
    x ∈ c.changes \ (b.planIn m found (copyWanted listed assignments)).forget ↔
      x ∈ c.changes ∧
        ¬ Overrules b ((m.find? key).getD .none) listed.content.kind assignments x := by
  rw [NameSet.mem_diff, Rulebook.planIn, locksIn_copyWanted m assignments hid, Rulebook.schemaOf,
    key_copyWanted, Plan.mem_forget_full]
  refine and_congr_right fun hx => not_congr ?_
  have hchanges : x ∈ found.changes := hless x hx
  rw [and_iff_right hchanges, Overrules]
  refine or_congr_right (and_congr_right fun hmark => and_congr_left' ?_)
  -- the copy is still marked as deleted, so the plan was made for a deleted one
  subst hmark
  have hdeleted : found.isManuallyDeleted = true := decide_eq_true hchanges
  have hdeleted' : listed.isManuallyDeleted = true := decide_eq_true (hlisted _ hchanges)
  rw [Plan.bringsBack, hdeleted, Bool.and_true, undeletes_of_deleted hdeleted']

end Command

/-- A copy after a sync with assignments, under the locks of the blueprint content. -/
def BareCopy.synced (b : Rulebook) (assignments : List Assignment) (r : Restrictions)
    (c : BareCopy) : BareCopy :=
  { c with changes := c.changes.filter fun x =>
      !decide (Command.Overrules b r c.kind assignments x) }

/-! ## Scripts that do what there is to do -/

/-- How many identifiers what there is to do may take. -/
def Todo.draws : Todo → Nat
  | nothing => 0
  | relock _ _ => 1
  | sync _ _ _ => 3
  | bring _ _ _ => 2
  | copy _ _ => 2

namespace Script

variable {α β : Type} {b : Rulebook} {known : List ContentKey} {alone : Prop}

/-- From tables on, the script does what there is to do, one step by each call, whatever other commands
do between its calls as long as what the calls take for granted holds. If the script is alone, nothing
is done between its calls. -/
def Achieves (b : Rulebook) (known : List ContentKey) (alone : Prop) : Script α → Todo → Tables → Prop
  | done _, p, _ => p = .nothing
  | call basis x next, p, ts =>
    (alone → basis ts = true) ∧
      ∀ n s₁ ts₁, s₁.Serves b known (n + p.draws) ts₁ → ts.Onward ts₁ → (alone → ts₁ = ts) →
        basis ts₁ = true → ∃ a s₂ ts₂ p', x.run s₁ = (.ok a, s₂) ∧
          s₂.Serves b known (n + p'.draws) ts₂ ∧ ts₁.Onward ts₂ ∧
          Todo.Step p (ts₁.view known) p' (ts₂.view known) ∧ (next a).Achieves b known alone p' ts₂

variable {p : Todo} {ts ts' : Tables} {next : β → Script α}

/-- Tables may have gone on since, if the script is not alone. -/
theorem Achieves.onward {x : Script α} (h : x.Achieves b known alone p ts) (honward : ts.Onward ts')
    (halone : alone → ts' = ts) : x.Achieves b known alone p ts' := by
  cases x with
  | done r => exact h
  | call basis x next =>
    refine ⟨fun h' => halone h' ▸ h.1 h', fun n s₁ ts₁ hs₁ honward₁ halone₁ hbasis => ?_⟩
    exact h.2 n s₁ ts₁ hs₁ (honward.trans honward₁) (fun h' => (halone₁ h').trans (halone h')) hbasis

/-- A call that looks up something. -/
theorem Achieves.look {x : Action Store β}
    (h : ∀ n s₁ ts₁, s₁.Serves b known n ts₁ → ts.Onward ts₁ → (alone → ts₁ = ts) →
      ∃ a s₂, x.run s₁ = (.ok a, s₂) ∧ s₂.Serves b known n ts₁ ∧
        (next a).Achieves b known alone p ts₁) :
    (Script.look x next).Achieves b known alone p ts := by
  refine ⟨fun _ => rfl, fun n s₁ ts₁ hs₁ honward halone _ => ?_⟩
  obtain ⟨a, s₂, hrun, hs₂, hnext⟩ := h _ s₁ ts₁ hs₁ honward halone
  exact ⟨a, s₂, ts₁, p, hrun, hs₂, .refl ts₁, .wait, hnext⟩

/-- A call that looks up something that must be there. -/
theorem Achieves.require {x : Action Store (Option β)} {e : Failure}
    (h : ∀ n s₁ ts₁, s₁.Serves b known n ts₁ → ts.Onward ts₁ → (alone → ts₁ = ts) →
      ∃ found, x.run s₁ = (.ok found, s₁) ∧ match found with
        | some a => (next a).Achieves b known alone p ts₁
        | none => p = .nothing) :
    (Script.require x e next).Achieves b known alone p ts := by
  refine .look fun n s₁ ts₁ hs₁ honward halone => ?_
  obtain ⟨found, hrun, hnext⟩ := h n s₁ ts₁ hs₁ honward halone
  refine ⟨found, s₁, hrun, hs₁, ?_⟩
  cases found with
  | none => exact hnext
  | some a => exact hnext

/-- A script that runs alone does what there is to do. -/
theorem run_of_achieves {x : Script α} (h : x.Achieves b known True p ts) {n : Nat} {s : Store}
    (hs : s.Serves b known (n + p.draws) ts) : ∃ r s' ts', x.toAction.run s = (r, s') ∧
      s'.Serves b known n ts' ∧ ts.Onward ts' ∧ ts'.view known = p.run (ts.view known) := by
  induction x generalizing p ts s with
  | done r =>
    obtain rfl : p = .nothing := h
    exact ⟨r, s, ts, rfl, hs, .refl ts, rfl⟩
  | call basis x next ih =>
    obtain ⟨hbasis, hcall⟩ := h
    obtain ⟨a, s₂, ts₂, p', hrun, hs₂, honward, hstep, hnext⟩ :=
      hcall n s ts hs (.refl ts) (fun _ => rfl) (hbasis trivial)
    obtain ⟨r, s', ts', hrest, hs', honward', hview⟩ := ih a hnext hs₂
    refine ⟨r, s', ts', ?_, hs', honward.trans honward', hview.trans hstep.run_eq⟩
    rw [toAction, Action.run_bind_ok hrun, hrest]

/-- What two scripts that take turns bring about is the same as if one had run after the other. The
induction is on the turns; both scripts have what is left of theirs to do from tables that have gone on
since. -/
theorem serial_of_interleaved {x : Script α} {y : Script β} {s s' : Store}
    (h : Interleaved true x y s s') {p q : Todo} {ts₁ ts₂ ts : Tables}
    (hs : s.Serves b known (q.draws + p.draws) ts)
    (hx : x.Achieves b known False p ts₁) (hts₁ : ts₁.Onward ts)
    (hy : y.Achieves b known False q ts₂) (hts₂ : ts₂.Onward ts) (hc : p.Compatible q) :
    ∃ ts', s'.Serves b known 0 ts' ∧ p.Serial q (ts.view known) (ts'.view known) := by
  induction h generalizing p q ts₁ ts₂ ts with
  | done =>
    obtain rfl : p = .nothing := hx
    obtain rfl : q = .nothing := hy
    exact ⟨ts, hs, .inl rfl⟩
  | left hbasis hrun hrest ih =>
    obtain ⟨a, s₂, ts', p', hrun', hs₂, honward, hstep, hnext⟩ :=
      hx.2 _ _ ts hs hts₁ False.elim (hs.granted (hbasis rfl))
    rw [hrun] at hrun'
    obtain ⟨rfl, rfl⟩ := Prod.mk.inj hrun'
    obtain ⟨ts'', hs'', hserial⟩ :=
      ih hs₂ hnext (.refl ts') hy (hts₂.trans honward) (hc.of_step hstep)
    exact ⟨ts'', hs'', hserial.of_step hstep hc⟩
  | right hbasis hrun hrest ih =>
    rw [Nat.add_comm] at hs
    obtain ⟨a, s₂, ts', q', hrun', hs₂, honward, hstep, hnext⟩ :=
      hy.2 _ _ ts hs hts₂ False.elim (hs.granted (hbasis rfl))
    rw [hrun] at hrun'
    obtain ⟨rfl, rfl⟩ := Prod.mk.inj hrun'
    rw [Nat.add_comm] at hs₂
    obtain ⟨ts'', hs'', hserial⟩ :=
      ih hs₂ hx (hts₁.trans honward) hnext (.refl ts') (hc.symm.of_step hstep).symm
    exact ⟨ts'', hs'', (hserial.symm.of_step hstep hc.symm).symm⟩

end Script

/-! ## What locking and syncing do -/

namespace Task

variable {b : Rulebook} {known : List ContentKey} {alone : Prop} {ts : Tables}

/-- A copy of content in a subscription, if it has to be made. -/
def fresh (s : Subscription) (kind : Kind) (key : String) : BareCopy := ⟨s.id, kind, none, some key, ∅⟩

/-- What a command has to do. -/
def todo (b : Rulebook) (ts : Tables) : Task → Todo
  | setLocks course content locks on =>
    if locks.isEmpty then .nothing
    else if !content.kind.allowedInBlueprint then .nothing
    else match ts.templates.find? fun t => t.courseId = course with
      | none => .nothing
      | some t => .relock (t.subject b.settings.marker content) (setAll locks on)
  | sync subscription content assignments =>
    if !content.kind.allowedInBlueprint then .nothing
    else match ts.subscriptions.find? fun s => s.id = subscription with
      | none => .nothing
      | some s => match ts.templates.find? fun t => t.id = s.templateId with
        | none => .nothing
        | some t =>
          let k := t.subject b.settings.marker content
          .sync k (fresh s content.kind k.migrationId) (BareCopy.synced b assignments)

theorem achieves_setLocks (course : Uuid) (content : ContentKey) (locks : List Lock) (on : Bool) :
    (scriptSetLocks b course content locks on).Achieves b known alone
      ((setLocks course content locks on).todo b ts) ts := by
  simp only [scriptSetLocks, todo]
  split
  · rfl
  · split
    · rfl
    · refine .require fun _ s₁ ts₁ hs₁ honward _ => ⟨_, hs₁.run_templateOf? course, ?_⟩
      rw [honward.templates]
      cases htemplate : ts.templates.find? fun t => t.courseId = course with
      | none => rfl
      | some t =>
        have ht : t ∈ ts.templates := List.mem_of_find?_eq_some htemplate
        let key := t.migrationId b.settings.marker content
        refine .look fun _ s₂ ts₂ hs₂ honward₂ _ => ?_
        obtain ⟨s₃, hrun, hs₃⟩ := hs₂.run_masterTag? key
        refine ⟨_, s₃, hrun, hs₃, fun _ => decide_eq_true rfl, fun _ s₄ ts₄ hs₄ honward₄ _ hbasis => ?_⟩
        have ht₄ : t ∈ ts₄.templates := by
          rw [honward₄.templates, honward₂.templates, honward.templates]
          exact ht
        rw [← of_decide_eq_true hbasis]
        have hkey : key = t.migrationId b.settings.marker content := rfl
        obtain ⟨tag, s₅, ts₅, hsave, hs₅, honward₅, hview⟩ := hs₄.run_saveLocks ht₄ hkey locks on
        refine ⟨tag, s₅, ts₅, .nothing, hsave, hs₅, honward₅, ?_, rfl⟩
        rw [hview]
        exact .relock

/-- A look-up that only the answer of a command depends on. -/
theorem achieves_answer {α β : Type} {x : Action Store (Option β)} {e : Failure}
    {answer : β → Result α}
    (hx : ∀ n s₁ ts₁, s₁.Serves b known n ts₁ → ∃ found, x.run s₁ = (.ok found, s₁)) :
    (Script.require x e fun a => .done (answer a)).Achieves b known alone .nothing ts := by
  refine .require fun n s₁ ts₁ hs₁ _ _ => ?_
  obtain ⟨found, hrun⟩ := hx n s₁ ts₁ hs₁
  refine ⟨found, hrun, ?_⟩
  cases found with
  | none => rfl
  | some a => rfl

section Bringing

variable {s : Subscription} {t : Template} {content : ContentKey} {assignments : List Assignment}
  {key : String}

/-- A copy is made, if none was found. -/
theorem achieves_makeCopy {r : Restrictions} {tags : List ChildTag} {answer : ChildTag → Result Report}
    (htags : ∀ tag, tag ∈ tags ↔ tag ∈ ts.childTags ∧ tag.subscriptionId = s.id)
    (hnone : (tags.find? fun tag => tag.migrationId = some key) = none) :
    (Script.call
      (fun ts => decide (∀ c ∈ ts.childTags, c.subscriptionId = s.id → c.migrationId ≠ some key))
      (makeCopy s.id content.kind key) fun content =>
        .require (Store.childTag? content) (.untracked content) fun tag => .done (answer tag)).Achieves
      b known alone (.copy (fresh s content.kind key) (BareCopy.synced b assignments r)) ts := by
  refine ⟨fun _ => decide_eq_true fun c hc hsubscription hid => ?_, fun _ s₁ ts₁ hs₁ _ _ hbasis => ?_⟩
  · rw [List.find?_eq_none] at hnone
    exact hnone c ((htags c).2 ⟨hc, hsubscription⟩) (decide_eq_true hid)
  · obtain ⟨made, s₂, ts₂, hrun, hs₂, honward, hview⟩ := hs₁.run_makeCopy content.kind
      (of_decide_eq_true hbasis) (BareCopy.synced b assignments r)
    refine ⟨made, s₂, ts₂, .nothing, hrun, hs₂, honward, ?_,
      achieves_answer fun _ s₃ ts₃ hs₃ => ⟨_, hs₃.run_childTag? made⟩⟩
    rw [hview]
    exact .copy

/-- The locks overrule changes of the copy that was found. -/
theorem achieves_update {m : Migration} {existing : ChildTag}
    {answer : ChildTag → ChildTag → Result Report} (hexisting : existing ∈ ts.childTags)
    (hsubscription : existing.subscriptionId = s.id) (hid : existing.migrationId = some key) :
    (Script.look (Store.findOrCreateChildTag s.id existing.content existing.migrationId) fun found =>
      let plan := b.planIn m found (Command.copyWanted existing assignments)
      .look (Rulebook.forget found plan) fun _ =>
      .require (Store.childTag? existing.content) (.untracked existing.content) fun tag =>
        .done (answer found tag)).Achieves b known alone
      (.copy (fresh s content.kind key) (BareCopy.synced b assignments ((m.find? key).getD .none)))
      ts := by
  refine .look fun _ s₁ ts₁ hs₁ honward _ => ?_
  obtain ⟨found, hfound, hcontent, hsubscription₁, hid₁, hless₁⟩ := honward.copies existing hexisting
  have hrun := hs₁.run_findOrCreateChildTag hfound s.id existing.migrationId
  rw [hcontent] at hrun
  refine ⟨found, s₁, hrun, hs₁, fun _ => rfl, fun _ s₂ ts₂ hs₂ honward₂ _ _ => ?_⟩
  obtain ⟨c, hc, hcontent₂, hsubscription₂, hid₂, hless₂⟩ := honward₂.copies found hfound
  have hcopy : (c.bare known).IsCopyOf (fresh s content.kind key) :=
    ⟨(hsubscription₂.trans hsubscription₁).trans hsubscription, (hid₂.trans hid₁).trans hid⟩
  have hkind : c.content.kind = existing.content.kind := by rw [hcontent₂, hcontent]
  have hrewrite : { c.bare known with
      changes := c.changes \ (b.planIn m found (Command.copyWanted existing assignments)).forget } =
      BareCopy.synced b assignments ((m.find? key).getD .none) (c.bare known) := by
    refine congrArg (BareCopy.mk _ _ _ _) (NameSet.eq_of_mem_iff fun x => ?_)
    rw [Command.mem_diff_forget hid hless₁ hless₂, NameSet.mem_filter, ← hkind,
      Bool.not_eq_true', decide_eq_false_iff_not]
    rfl
  obtain ⟨s₃, ts₃, hforget, hs₃, honward₃, hview⟩ :=
    hs₂.run_forget hc hcontent₂.symm hcopy hrewrite
  refine ⟨(), s₃, ts₃, .nothing, hforget, hs₃.mono (Nat.le_add_right _ _), honward₃, ?_,
    achieves_answer fun _ s₄ ts₄ hs₄ => ⟨_, hs₄.run_childTag? existing.content⟩⟩
  rw [hview]
  exact .copy

/-- Content is brought to a subscription that follows its template. -/
theorem achieves_bring (hfollows : t.id = s.templateId)
    (hkey : key = t.migrationId b.settings.marker content) (masterTag : MasterTag) :
    (scriptBring b s content key assignments masterTag).Achieves b known alone
      (.bring ⟨t.id, content, key⟩ (fresh s content.kind key) (BareCopy.synced b assignments)) ts := by
  refine .look fun _ s₁ ts₁ hs₁ _ _ => ?_
  obtain ⟨tags, hlisted, htags⟩ := hs₁.run_childTagsOf s.id
  refine ⟨tags, s₁, hlisted, hs₁, fun _ => rfl, fun _ s₂ ts₂ hs₂ honward halone _ => ?_⟩
  obtain ⟨m, hload, rfl, hlocks⟩ := hs₂.run_load hfollows content
  rw [← hkey] at hlocks
  -- from here on the locks that were loaded count
  let locks := (ts₂.view known).locks key
  let copy : Todo := .copy (fresh m.subscription content.kind key) (BareCopy.synced b assignments locks)
  refine ⟨m, s₂, ts₂, copy, hload, hs₂, .refl ts₂, .load, ?_⟩
  show Script.Achieves b known alone _ (.copy _ (BareCopy.synced b assignments locks)) ts₂
  rw [show locks = _ from hlocks.symm]
  refine Script.Achieves.onward ?_ honward halone
  cases hfound : tags.find? fun tag => tag.migrationId = some key with
  | none => exact achieves_makeCopy htags hfound
  | some existing =>
    obtain ⟨hexisting, hsubscription⟩ := (htags existing).1 (List.mem_of_find?_eq_some hfound)
    exact achieves_update hexisting hsubscription (by simpa using List.find?_some hfound)

end Bringing

theorem achieves_sync (subscription : Uuid) (content : ContentKey) (assignments : List Assignment) :
    (scriptSync b subscription content assignments).Achieves b known alone
      ((sync subscription content assignments).todo b ts) ts := by
  simp only [scriptSync, todo]
  split
  · rfl
  · refine .require fun _ s₁ ts₁ hs₁ honward₁ _ => ⟨_, hs₁.run_subscription? subscription, ?_⟩
    rw [honward₁.subscriptions]
    cases hsubscription : ts.subscriptions.find? fun s => s.id = subscription with
    | none => rfl
    | some s =>
      simp only
      refine .require fun _ s₂ ts₂ hs₂ honward₂ _ => ⟨_, hs₂.run_template? s.templateId, ?_⟩
      rw [honward₂.templates, honward₁.templates]
      cases htemplate : ts.templates.find? fun t => t.id = s.templateId with
      | none => rfl
      | some t =>
        have ht : t ∈ ts.templates := List.mem_of_find?_eq_some htemplate
        have hfollows : t.id = s.templateId := by simpa using List.find?_some htemplate
        let key := t.migrationId b.settings.marker content
        let bring : Todo := .bring (t.subject b.settings.marker content)
          (fresh s content.kind key) (BareCopy.synced b assignments)
        refine ⟨fun _ => rfl, fun n s₃ ts₃ hs₃ honward₃ _ _ => ?_⟩
        obtain ⟨s₄, hrun, hs₄⟩ := hs₃.run_masterTag? key
        cases hfound : ts₃.masterTag? key with
        | some tag =>
          rw [hfound] at hrun
          refine ⟨some tag, s₄, ts₃, bring, hrun, hs₄.mono (Nat.le_succ _), .refl ts₃, ?_,
            achieves_bring hfollows rfl tag⟩
          have htrack : (ts₃.view known).track (t.subject b.settings.marker content) = ts₃.view known :=
            View.track_of_some (congrArg (Option.map MasterTag.bare) hfound)
          nth_rewrite 2 [← htrack]
          exact .track
        | none =>
          rw [hfound] at hrun
          refine ⟨none, s₄, ts₃, _, hrun, hs₄, .refl ts₃, .wait, fun _ => decide_eq_true hfound,
            fun _ s₅ ts₅ hs₅ honward₅ _ hbasis => ?_⟩
          have ht₅ : t ∈ ts₅.templates := by
            rw [honward₅.templates, honward₃.templates, honward₂.templates, honward₁.templates]
            exact ht
          have hkey : key = t.migrationId b.settings.marker content := rfl
          obtain ⟨tag, s₆, ts₆, hsave, hs₆, honward₆, hview⟩ :=
            hs₅.run_saveNewTag ht₅ hkey (of_decide_eq_true hbasis)
          refine ⟨tag, s₆, ts₆, bring, hsave, hs₆, honward₆, ?_, achieves_bring hfollows rfl tag⟩
          rw [hview]
          exact .track

/-- A script does what there is to do. -/
theorem achieves_script (b : Rulebook) (known : List ContentKey) (alone : Prop) (task : Task)
    (ts : Tables) : (task.script b).Achieves b known alone (task.todo b ts) ts := by
  cases task with
  | setLocks course content locks on => exact achieves_setLocks course content locks on
  | sync subscription content assignments => exact achieves_sync subscription content assignments

end Task

end CourseBlueprint
