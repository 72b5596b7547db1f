import Mathlib.Data.Multiset.MapFold
import Mathlib.Logic.Function.Basic
import CourseBlueprint.Proofs.Store.Soundness

/-!
# Tables without generated identifiers

A `View` is what is left of tables without the order of their rows, without times and without the
identifiers that commands generate. Locking and syncing are functions of views (`Todo.run`), and so are
the steps that they take (`Todo.Step`). If two of them take turns step by step, in the end it is as if
one had begun after the other was done (`Todo.Serial.of_step`).
-/

namespace CourseBlueprint

/-! ## Views -/

/-- What a master tag is for. -/
structure Subject where
  templateId : Uuid
  content : ContentKey
  migrationId : String

/-- A master tag without its own identifier and times. -/
structure BareMaster where
  subject : Subject
  restrictions : Restrictions

/-- A child tag without its own identifier and times, and without the identifier of its content if that
was generated. -/
structure BareCopy where
  subscriptionId : Uuid
  kind : Kind
  content : Option ContentKey
  migrationId : Option String
  changes : NameSet

/-- Tables without the order of the rows, without times and without generated identifiers. Master tags
are told by their migration identifiers. -/
@[ext] structure View where
  templates : List Template
  subscriptions : List Subscription
  masters : String → Option BareMaster
  copies : Multiset BareCopy

def MasterTag.bare (t : MasterTag) : BareMaster :=
  ⟨⟨t.templateId, t.content, t.migrationId⟩, t.restrictions⟩

/-- The content of a tag counts as generated unless it is known. -/
def ChildTag.bare (known : List ContentKey) (t : ChildTag) : BareCopy :=
  ⟨t.subscriptionId, t.content.kind, if t.content ∈ known then some t.content else none,
    t.migrationId, t.changes⟩

/-- What is left of tables, if no content but the known was there when the commands began. -/
def Tables.view (known : List ContentKey) (ts : Tables) : View where
  templates := ts.templates
  subscriptions := ts.subscriptions
  masters := fun id => (ts.masterTags.find? fun t => t.migrationId = id).map MasterTag.bare
  copies := ts.childTags.map (ChildTag.bare known)

/-! ## What commands do to a view -/

/-- Whether two tags are of copies of the same content in the same subscription. -/
def BareCopy.IsCopyOf (c fresh : BareCopy) : Prop :=
  c.subscriptionId = fresh.subscriptionId ∧ c.migrationId = fresh.migrationId

instance (c fresh : BareCopy) : Decidable (c.IsCopyOf fresh) :=
  inferInstanceAs (Decidable (_ ∧ _))

instance (copies : Multiset BareCopy) (fresh : BareCopy) :
    Decidable (∃ c ∈ copies, c.IsCopyOf fresh) := Multiset.decidableExistsMultiset

namespace View

variable {v : View} {k k' : Subject} {f g : Restrictions → Restrictions} {id : String}

/-- The locks under a migration identifier. -/
def locks (v : View) (id : String) : Restrictions :=
  ((v.masters id).map BareMaster.restrictions).getD Restrictions.none

/-- What the master tag under the migration identifier of a subject is for. -/
def holder (v : View) (k : Subject) : Subject :=
  ((v.masters k.migrationId).map BareMaster.subject).getD k

/-- Changes the locks of a master tag, which is made if there is none. -/
def relock (v : View) (k : Subject) (f : Restrictions → Restrictions) : View :=
  let new : BareMaster := ⟨v.holder k, f (v.locks k.migrationId)⟩
  { v with masters := Function.update v.masters k.migrationId (some new) }

/-- Makes a master tag if there is none. -/
def track (v : View) (k : Subject) : View := v.relock k fun r => r

/-- Rewrites a copy, which is made if there is none. -/
def copy (v : View) (fresh : BareCopy) (rewrite : BareCopy → BareCopy) : View :=
  { v with copies :=
      if ∃ c ∈ v.copies, c.IsCopyOf fresh then
        v.copies.map fun c => if c.IsCopyOf fresh then rewrite c else c
      else fresh ::ₘ v.copies }

theorem masters_relock (v : View) (k : Subject) (f : Restrictions → Restrictions) :
    (v.relock k f).masters = Function.update v.masters k.migrationId
      (some ⟨v.holder k, f (v.locks k.migrationId)⟩) := rfl

/-- A master tag that is there need not be made. -/
theorem track_of_some {m : BareMaster} (h : v.masters k.migrationId = some m) : v.track k = v := by
  refine View.ext rfl rfl ?_ rfl
  rw [track, masters_relock, holder, locks, h]
  exact Function.update_eq_self_iff.2 h.symm

theorem locks_relock (v : View) (k : Subject) (f : Restrictions → Restrictions) (id : String) :
    (v.relock k f).locks id = if id = k.migrationId then f (v.locks id) else v.locks id := by
  by_cases hid : id = k.migrationId
  · subst hid
    rw [if_pos rfl]
    simp [locks, relock]
  · rw [if_neg hid]
    simp [locks, relock, Function.update_of_ne hid]

theorem holder_relock_of_ne (hid : k'.migrationId ≠ k.migrationId) :
    (v.relock k f).holder k' = v.holder k' := by
  simp [holder, relock, Function.update_of_ne hid]

@[simp] theorem locks_track (v : View) (k : Subject) (id : String) :
    (v.track k).locks id = v.locks id := by
  rw [track, locks_relock]
  split
  · rfl
  · rfl

@[simp] theorem locks_copy (v : View) (fresh : BareCopy) (rewrite : BareCopy → BareCopy)
    (id : String) : (v.copy fresh rewrite).locks id = v.locks id := rfl

/-- Changing locks and making a master tag can be done in either order. -/
theorem relock_track (hsame : k.migrationId = k'.migrationId → k = k') :
    (v.relock k f).track k' = (v.track k').relock k f := by
  by_cases hid : k.migrationId = k'.migrationId
  · obtain rfl := hsame hid
    simp [track, relock, holder, locks]
  · refine View.ext rfl rfl ?_ rfl
    simp only [track, masters_relock, locks_relock, holder_relock_of_ne hid,
      holder_relock_of_ne (Ne.symm hid), if_neg hid, if_neg (Ne.symm hid)]
    exact Function.update_comm hid ..

/-- Master tags and copies do not stand in each other's way. -/
theorem copy_track (fresh : BareCopy) (rewrite : BareCopy → BareCopy) :
    (v.copy fresh rewrite).track k = (v.track k).copy fresh rewrite := rfl

end View

/-! ## What writing rows does to a view -/

namespace Tables

variable {α β γ : Type} [DecidableEq γ] {ts : Tables} {known : List ContentKey}

/-- Of rows with different keys, only the one with the key is replaced. -/
theorem map_replaceFirst_of_nodup {f : α → β} {key : α → γ} {rows : List α} {row : α} {k : γ}
    (h : (rows.map key).Nodup) :
    (replaceFirst (fun r => key r = k) row rows).map f =
      rows.map fun r => if key r = k then f row else f r := by
  induction rows with
  | nil => rfl
  | cons r rows ih =>
    rw [List.map_cons, List.nodup_cons] at h
    unfold replaceFirst
    by_cases hr : key r = k
    · have hothers : ∀ r' ∈ rows, key r' ≠ k := by
        rintro r' hr' rfl
        exact h.1 (hr ▸ List.mem_map_of_mem hr')
      rw [if_pos (decide_eq_true hr), List.map_cons, List.map_cons, if_pos hr]
      exact congrArg _ (List.map_congr_left fun r' hr' => (if_neg (hothers r' hr')).symm)
    · rw [if_neg (by simpa using hr), List.map_cons, List.map_cons, if_neg hr, ih h.2]

/-- Saving a master tag changes the locks that are seen under its migration identifier. -/
theorem view_upsert {tag : MasterTag} {k : Subject} {f : Restrictions → Restrictions}
    (hid : tag.migrationId = k.migrationId)
    (hbare : tag.bare = ⟨(ts.view known).holder k, f ((ts.view known).locks k.migrationId)⟩) :
    view known { ts with
        masterTags := upsert (fun t => t.migrationId = tag.migrationId) tag ts.masterTags } =
      (ts.view known).relock k f := by
  refine View.ext rfl rfl (funext fun id => ?_) rfl
  show ((upsert _ tag ts.masterTags).find? fun t => t.migrationId = id).map MasterTag.bare =
    Function.update (ts.view known).masters k.migrationId _ id
  rw [find?_upsert, ← hbare, hid]
  by_cases h : id = k.migrationId
  · subst h
    rw [if_pos rfl, Function.update_self, Option.map_some]
  · rw [if_neg h, Function.update_of_ne h]
    rfl

/-- Adding the child tag of new content adds a copy. -/
theorem view_append {tag : ChildTag} {fresh : BareCopy} {rewrite : BareCopy → BareCopy}
    (hbare : tag.bare known = fresh)
    (hnew : ∀ c ∈ ts.childTags, ¬ (c.bare known).IsCopyOf fresh) :
    view known { ts with childTags := ts.childTags ++ [tag] } =
      (ts.view known).copy fresh rewrite := by
  refine View.ext rfl rfl rfl ?_
  have hnone : ¬ ∃ c ∈ (ts.view known).copies, c.IsCopyOf fresh := by
    rintro ⟨c, hc, hcopy⟩
    obtain ⟨row, hrow, rfl⟩ := List.mem_map.1 (Multiset.mem_coe.1 hc)
    exact hnew row hrow hcopy
  show (((ts.childTags ++ [tag]).map (ChildTag.bare known) : List BareCopy) : Multiset BareCopy) = _
  unfold View.copy
  simp only
  rw [if_neg hnone, List.map_append, List.map_singleton, hbare]
  exact Multiset.coe_eq_coe.2 (List.perm_append_singleton fresh _)

/-- The tables with a child tag in the place of the one of its content. -/
def putChildTag (ts : Tables) (tag : ChildTag) : Tables :=
  { ts with childTags := replaceFirst (fun t => t.content = tag.content) tag ts.childTags }

section Rewriting

variable {tag tag' : ChildTag} {fresh : BareCopy} {rewrite : BareCopy → BareCopy}
  (hcontents : (ts.childTags.map ChildTag.content).Nodup) (htag : tag ∈ ts.childTags)
include hcontents htag

theorem putChildTag_self : ts.putChildTag tag = ts := by
  rw [putChildTag, replaceFirst_self ((find?_eq_some_iff hcontents).2 ⟨htag, rfl⟩)]

/-- Replacing a child tag by one of the same content rewrites a copy. -/
theorem view_putChildTag
    (honce : (ts.childTags.map fun c => (c.subscriptionId, c.migrationId)).Nodup)
    (hcontent : tag'.content = tag.content) (hcopy : (tag.bare known).IsCopyOf fresh)
    (hbare : tag'.bare known = rewrite (tag.bare known)) :
    (ts.putChildTag tag').view known = (ts.view known).copy fresh rewrite := by
  refine View.ext rfl rfl rfl ?_
  have hsome : ∃ c ∈ (ts.view known).copies, c.IsCopyOf fresh :=
    ⟨_, Multiset.mem_coe.2 (List.mem_map_of_mem htag), hcopy⟩
  show ((List.map _ (replaceFirst _ tag' ts.childTags) : List BareCopy) : Multiset BareCopy) = _
  unfold View.copy
  simp only
  rw [if_pos hsome, map_replaceFirst_of_nodup hcontents, hcontent]
  show _ = Multiset.map _ ((ts.childTags.map (ChildTag.bare known) : List BareCopy) :
    Multiset BareCopy)
  rw [Multiset.map_coe, List.map_map]
  refine congrArg _ (List.map_congr_left fun c hc => ?_)
  by_cases hc' : c.content = tag.content
  · obtain rfl := eq_of_nodup_map hcontents hc htag hc'
    rw [if_pos rfl, Function.comp_apply, if_pos hcopy, hbare]
  · rw [if_neg hc', Function.comp_apply, if_neg]
    rintro ⟨hsubscription, hid⟩
    refine hc' (congrArg _ (eq_of_nodup_map honce hc htag ?_))
    exact Prod.ext (hsubscription.trans hcopy.1.symm) (hid.trans hcopy.2.symm)

end Rewriting

end Tables

/-! ## Two commands that take turns -/

/-- What a command has still to do: nothing; to change the locks of a master tag; to track blueprint
content and then bring it; to look up its locks and then bring it; or to bring it. -/
inductive Todo where
  | nothing
  | relock (k : Subject) (f : Restrictions → Restrictions)
  | sync (k : Subject) (fresh : BareCopy) (rewrite : Restrictions → BareCopy → BareCopy)
  | bring (k : Subject) (fresh : BareCopy) (rewrite : Restrictions → BareCopy → BareCopy)
  | copy (fresh : BareCopy) (rewrite : BareCopy → BareCopy)

namespace Todo

/-- Does all that there is to do. -/
def run : Todo → View → View
  | nothing, v => v
  | relock k f, v => v.relock k f
  | sync k fresh rewrite, v =>
    let v' := v.track k
    v'.copy fresh (rewrite (v'.locks k.migrationId))
  | bring k fresh rewrite, v => v.copy fresh (rewrite (v.locks k.migrationId))
  | copy fresh rewrite, v => v.copy fresh rewrite

/-- One step of what there is to do. A step may also leave all as it is. -/
inductive Step : Todo → View → Todo → View → Prop
  | wait {p : Todo} {v : View} : Step p v p v
  | relock {k : Subject} {f : Restrictions → Restrictions} {v : View} :
      Step (.relock k f) v .nothing (v.relock k f)
  | track {k : Subject} {fresh : BareCopy} {rewrite : Restrictions → BareCopy → BareCopy}
      {v : View} : Step (.sync k fresh rewrite) v (.bring k fresh rewrite) (v.track k)
  | load {k : Subject} {fresh : BareCopy} {rewrite : Restrictions → BareCopy → BareCopy}
      {v : View} : Step (.bring k fresh rewrite) v (.copy fresh (rewrite (v.locks k.migrationId))) v
  | copy {fresh : BareCopy} {rewrite : BareCopy → BareCopy} {v : View} :
      Step (.copy fresh rewrite) v .nothing (v.copy fresh rewrite)

/-- The master tag that a command deals with. -/
def subject? : Todo → Option Subject
  | relock k _ => some k
  | sync k _ _ => some k
  | bring k _ _ => some k
  | _ => none

/-- Whether master tags with the same migration identifier are for the same content. -/
def Compatible (p q : Todo) : Prop :=
  ∀ k ∈ p.subject?, ∀ k' ∈ q.subject?, k.migrationId = k'.migrationId → k = k'

/-- Whether a view is left if one of two commands is done after the other. -/
def Serial (p q : Todo) (v w : View) : Prop := w = q.run (p.run v) ∨ w = p.run (q.run v)

variable {p p' q : Todo} {v v' w : View}

theorem Compatible.symm (h : p.Compatible q) : q.Compatible p :=
  fun k hk k' hk' hid => (h k' hk' k hk hid.symm).symm

theorem Serial.symm (h : p.Serial q v w) : q.Serial p v w := Or.symm h

theorem Step.subject? (h : Step p v p' v') {k : Subject} (hk : k ∈ p'.subject?) :
    k ∈ p.subject? := by
  cases h with
  | wait => exact hk
  | relock => cases hk
  | track => exact hk
  | load => cases hk
  | copy => cases hk

theorem Compatible.of_step (hc : p.Compatible q) (h : Step p v p' v') : p'.Compatible q :=
  fun k hk k' hk' => hc k (h.subject? hk) k' hk'

/-- What is left to do after a step brings about what there was to do. -/
theorem Step.run_eq (h : Step p v p' v') : p'.run v' = p.run v := by
  cases h with
  | wait => rfl
  | relock => rfl
  | track => rfl
  | load => rfl
  | copy => rfl

/-- A master tag may be made before or after another command. -/
theorem run_track {k : Subject} (hc : ∀ k' ∈ q.subject?, k'.migrationId = k.migrationId → k' = k) :
    q.run (v.track k) = (q.run v).track k := by
  cases q with
  | nothing => rfl
  | relock k' f => exact (View.relock_track (hc k' rfl)).symm
  | sync k' fresh rewrite =>
    simp only [run, View.locks_track, View.copy_track]
    have hcomm : (v.track k).track k' = (v.track k').track k :=
      (View.relock_track (hc k' rfl)).symm
    rw [hcomm]
  | bring k' fresh rewrite => simp only [run, View.locks_track, View.copy_track]
  | copy fresh rewrite => rfl

/-- A command that changes no locks under an identifier, if it does not change those of the tag that
has it. -/
theorem locks_run {id : String} (hc : ∀ k f, q = .relock k f → k.migrationId ≠ id) :
    (q.run v).locks id = v.locks id := by
  cases q with
  | nothing => rfl
  | relock k f => rw [run, View.locks_relock, if_neg (Ne.symm (hc k f rfl))]
  | sync k fresh rewrite => simp only [run, View.locks_copy, View.locks_track]
  | bring k fresh rewrite => rfl
  | copy fresh rewrite => rfl

/-- If it is as if two commands were done one after the other from the view that a step of one of them
has left, it is so from the view before the step. -/
theorem Serial.of_step (hs : p'.Serial q v' w) (h : Step p v p' v') (hc : p.Compatible q) :
    p.Serial q v w := by
  have hrun := h.run_eq
  rcases hs with hs | hs
  · -- the one that took the step was done first
    rw [hrun] at hs
    exact .inl hs
  · cases h with
    | wait => exact .inr hs
    | relock => exact .inl hs
    | copy => exact .inl hs
    | @track k fresh rewrite =>
      -- a master tag may as well be made later
      right
      rw [hs, run_track fun k' hk' hid => (hc k rfl k' hk' hid.symm).symm]
      rfl
    | @load k fresh rewrite =>
      by_cases hlock : ∃ f, q = .relock k f
      · -- locks that are changed after they were looked up make no difference to the copy
        obtain ⟨f, rfl⟩ := hlock
        exact .inl hs
      · right
        rw [hs]
        have hkept : (q.run v).locks k.migrationId = v.locks k.migrationId := by
          refine locks_run fun k' f hq hid => hlock ⟨f, ?_⟩
          rw [hq, hc k rfl k' (by rw [hq]; rfl) hid.symm]
        rw [← hkept]
        rfl

end Todo

end CourseBlueprint
