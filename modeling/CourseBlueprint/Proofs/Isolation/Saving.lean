import CourseBlueprint.Proofs.Isolation.Portions
import CourseBlueprint.Save

/-!
# Saving copies of one blueprint

Asking for the locks of a copy and saving it depend on the portion of its blueprint alone, whatever is
done: what is looked up is found under its migration identifier or comes with the migration, and what is
recorded is recorded on the child tag of its own content (`Blueprint.dependsOn_save`).
-/

namespace CourseBlueprint

/-- Items of the same content, with the same migration identifier. -/
structure Item.Like (i i' : Item) : Prop where
  key : i'.key = i.key
  migrationId : i'.migrationId = i.migrationId
  owner : i'.owner = i.owner

theorem Item.Like.trans {i i' i'' : Item} (h : i.Like i') (h' : i'.Like i'') : i.Like i'' :=
  ⟨h'.key.trans h.key, h'.migrationId.trans h.migrationId, h'.owner.trans h.owner⟩

theorem Item.like_restore (i : Item) (columns : List String) : i.Like (i.restore columns) := by
  obtain ⟨_, _, hframe⟩ := i.restore_frame columns
  rw [hframe]
  exact ⟨rfl, rfl, rfl⟩

theorem Item.Like.tagOwner {i i' : Item} (h : i.Like i') : i'.tagOwner = i.tagOwner := by
  unfold Item.tagOwner
  rw [h.owner, h.key]

namespace Blueprint

variable (b : Rulebook) (bp : Blueprint)

/-- Whether an item is a copy of content of the template, if it is a copy at all. -/
structure IsItem (i : Item) : Prop where
  own : bp.own i.key
  owner : bp.own i.tagOwner
  derived : ∀ id ∈ i.migrationId, bp.Derives b id

/-- A desk with a store that shows a portion, and an item that is like the one the work began with. -/
structure AtWork (i₀ : Item) (d : Desk) (k : Portion × Item) : Prop where
  shown : bp.Shown b d.store k.1
  item : d.item = k.2
  like : i₀.Like k.2

variable {b : Rulebook} {bp : Blueprint} {i₀ : Item} {P : Portion → Prop} {α : Type}

theorem IsItem.of_like (h : bp.IsItem b i₀) {i : Item} (hlike : i₀.Like i) : bp.IsItem b i :=
  ⟨hlike.key ▸ h.own, hlike.tagOwner ▸ h.owner, hlike.migrationId ▸ h.derived⟩

/-! ## Work on an item -/

theorem dependsOn_item : Action.DependsOn (bp.AtWork b i₀) (fun k => P k.1) Work.item fun i k =>
    i₀.Like i ∧ P k.1 :=
  .of_read fun d k hd => ⟨d, by rw [Work.run_item, hd.item], hd, hd.like⟩

theorem dependsOn_modifyItem {f : Item → Item} (hf : ∀ i : Item, i₀.Like i → i₀.Like (f i)) :
    Action.DependsOn (bp.AtWork b i₀) (fun k => P k.1) (Work.modifyItem f) fun _ k => P k.1 := by
  rintro ⟨p, i⟩ hp ⟨d₀, hd₀⟩
  refine .inr ⟨(), (p, f i), hp, fun d hd => ⟨{ d with item := f d.item }, rfl, hd.shown, ?_, ?_⟩⟩
  · exact congrArg f hd.item
  · exact hf i hd₀.like

/-- What the work leaves behind does not matter. -/
theorem dependsOn_modify {f : Desk → Desk} (hstore : ∀ d, (f d).store = d.store)
    (hitem : ∀ d, (f d).item = d.item) :
    Action.DependsOn (bp.AtWork b i₀) (fun k => P k.1) (Action.modify f) fun _ k => P k.1 := by
  rintro k hk -
  refine .inr ⟨(), k, hk, fun d hd => ⟨f d, rfl, ?_, (hitem d).trans hd.item, hd.like⟩⟩
  rw [hstore]
  exact hd.shown

theorem dependsOn_store {x : Action Store α} {Q : α → Portion → Prop}
    (hx : Action.DependsOn (bp.Shown b) P x Q) :
    Action.DependsOn (bp.AtWork b i₀) (fun k => P k.1) (Work.store x) fun a k => Q a k.1 := by
  rintro ⟨p, i⟩ hp ⟨d₀, hd₀⟩
  rcases hx p hp ⟨d₀.store, hd₀.shown⟩ with ⟨e, hfails⟩ | ⟨a, p', hp', hends⟩
  · refine .inl ⟨e, fun d hd => ?_⟩
    rw [Work.run_store, hfails d.store hd.shown]
  · refine .inr ⟨a, (p', i), hp', fun d hd => ?_⟩
    obtain ⟨s', hrun, hs'⟩ := hends d.store hd.shown
    exact ⟨{ d with store := s' }, Work.run_store_of hrun, hs', hd.item, hd.like⟩

/-! ## Asking for locks -/

variable {c : Context}

section Asking

variable (hi : ∀ id ∈ i₀.migrationId, bp.Derives b id)
include hi

theorem dependsOn_restrictionsInForce :
    Action.DependsOn (bp.AtWork b i₀) (fun k => P k.1) (Rulebook.restrictionsInForce c) fun _ k =>
      P k.1 := by
  have hkeep : ∀ r : Restrictions, Action.DependsOn (bp.AtWork b i₀) (fun k => P k.1)
      (Work.modifyItem (fun i => { i with childRestrictions := some r }) >>= fun _ => pure r)
      fun _ k => P k.1 :=
    fun r => .bind (dependsOn_modifyItem fun i h => ⟨h.key, h.migrationId, h.owner⟩) fun _ =>
      .pure fun _ hk => hk
  refine dependsOn_item.bind fun i => .under fun hlike => ?_
  split
  · exact .pure fun _ hk => hk
  · simp only
    split
    · exact hkeep _
    · exact hkeep _
    · next id hid _ =>
      have hderives : bp.Derives b id := hi id (hlike.migrationId ▸ hid)
      exact (dependsOn_store (dependsOn_masterTag? hderives)).map.bind fun found => hkeep _

theorem dependsOn_isRestricted (scope : Scope) :
    Action.DependsOn (bp.AtWork b i₀) (fun k => P k.1) (b.isRestricted c scope) fun _ k => P k.1 := by
  refine dependsOn_item.bind fun i => .under fun _ => ?_
  split
  · exact .pure fun _ hk => hk
  · exact (dependsOn_restrictionsInForce hi).bind fun r => .pure fun _ hk => hk

theorem dependsOn_lockedColumns (entries : List (Category × List String)) (acc : List String) :
    Action.DependsOn (bp.AtWork b i₀) (fun k => P k.1) (Rulebook.lockedColumns c entries acc)
      fun _ k => P k.1 := by
  induction entries generalizing acc with
  | nil => exact .pure fun _ hk => hk
  | cons e entries ih =>
    obtain ⟨g, columns⟩ := e
    refine dependsOn_item.bind fun i => .under fun _ => ?_
    simp only
    split
    · exact ih acc
    · exact (dependsOn_restrictionsInForce hi).bind fun r => ih _

theorem dependsOn_check :
    Action.DependsOn (bp.AtWork b i₀) (fun k => P k.1) (b.check c) fun _ k => P k.1 := by
  refine dependsOn_item.bind fun i => .under fun _ => ?_
  split
  · exact .pure fun _ hk => hk
  · exact (dependsOn_lockedColumns hi _ _).bind fun locked => .pure fun _ hk => hk

theorem dependsOn_summary (role : CourseRole) :
    Action.DependsOn (bp.AtWork b i₀) (fun k => P k.1) (b.summary c role) fun _ k => P k.1 := by
  refine dependsOn_item.bind fun i => .under fun _ => ?_
  cases role with
  | master => exact .pure fun _ hk => hk
  | child =>
    show Action.DependsOn _ _ (if _ then _ else _) _
    split
    · exact .pure fun _ hk => hk
    · refine (dependsOn_isRestricted hi .any).bind fun restricted => ?_
      exact (dependsOn_restrictionsInForce hi).bind fun r => .pure fun _ hk => hk

theorem dependsOn_planFor (tag : ChildTag) :
    Action.DependsOn (bp.AtWork b i₀) (fun k => P k.1) (b.planFor c tag) fun _ k => P k.1 := by
  refine (dependsOn_restrictionsInForce hi).bind fun r => ?_
  refine dependsOn_item.bind fun i => .under fun _ => ?_
  simp only
  split
  · exact (dependsOn_isRestricted hi .any).bind fun restricted => .pure fun _ hk => hk
  · exact .pure fun _ hk => hk

end Asking

/-! ## Saving -/

theorem dependsOn_carryOut {tag : ChildTag} (hown : bp.own tag.content) (plan : Reconciliation.Plan) :
    Action.DependsOn (bp.AtWork b i₀) (fun k => bp.Offers 0 k.1) (Rulebook.carryOut tag plan)
      fun _ k => bp.Offers 0 k.1 := by
  have htakeBack : Action.DependsOn (bp.AtWork b i₀) (fun k => bp.Offers 0 k.1)
      (if !plan.takeBack.isEmpty then do
        Work.modifyItem fun i => i.restore plan.takeBack
        .modify fun d =>
          { d with skipped := d.skipped ++ [{ tag with changes := tag.changes \ plan.forget }] }
      else pure () : Work Unit) fun _ k => bp.Offers 0 k.1 := by
    split
    · exact .bind (dependsOn_modifyItem fun i h => h.trans (i.like_restore _)) fun _ =>
        dependsOn_modify (fun _ => rfl) fun _ => rfl
    · exact .pure fun _ hk => hk
  unfold Rulebook.carryOut
  simp only
  split
  · exact .bind (dependsOn_store (dependsOn_removeChanges hown _)) fun _ => htakeBack
  · exact htakeBack

section Saving

variable (hi : bp.IsItem b i₀)
include hi

theorem dependsOn_keptCategories :
    Action.DependsOn (bp.AtWork b i₀) (fun k => P k.1) (b.keptCategories c) fun _ k => P k.1 := by
  refine dependsOn_item.bind fun i => .under fun hlike => ?_
  split
  · exact .pure fun _ hk => hk
  · refine (dependsOn_store (dependsOn_childTag? (hi.of_like hlike).own)).bind fun found =>
      .under fun _ => ?_
    split
    · exact .pure fun _ hk => hk
    · split
      · exact .pure fun _ hk => hk
      · exact (dependsOn_restrictionsInForce hi.derived).bind fun r => .pure fun _ hk => hk

theorem dependsOn_recordChanges (columns : Option (List String)) :
    Action.DependsOn (bp.AtWork b i₀) (fun k => bp.Offers 0 k.1) (b.recordChanges c columns)
      fun _ k => bp.Offers 0 k.1 := by
  refine dependsOn_item.bind fun i => .under fun hlike => ?_
  split
  · exact .pure fun _ hk => hk
  · simp only
    split
    · exact .pure fun _ hk => hk
    · exact (dependsOn_store (dependsOn_mergeChanges (hi.of_like hlike).owner _)).bind fun _ =>
        .pure fun _ hk => hk

variable (hc : ∀ m ∈ c.migration, m.subscription ∈ bp.subscriptions)
include hc

theorem dependsOn_reconcile :
    Action.DependsOn (bp.AtWork b i₀) (fun k => bp.Offers 0 k.1) (b.reconcile c) fun _ k =>
      bp.Offers 0 k.1 := by
  refine dependsOn_item.bind fun i => .under fun hlike => ?_
  have hitem := hi.of_like hlike
  split
  · exact .pure fun _ hk => hk
  · next m hm =>
    split
    · exact .pure fun _ hk => hk
    · refine (dependsOn_store (dependsOn_findOrCreateChildTag (hc m hm) hitem.own hitem.derived)).bind
        fun tag => .under fun hcontent => ?_
      split
      · exact .pure fun _ hk => hk
      · refine (dependsOn_planFor hi.derived tag).bind fun plan => ?_
        exact (dependsOn_carryOut (hcontent ▸ hitem.own) plan).bind fun _ => .pure fun _ hk => hk

theorem dependsOn_tagCopy :
    Action.DependsOn (bp.AtWork b i₀) (fun k => bp.Offers 0 k.1) (b.tagCopy c) fun _ k =>
      bp.Offers 0 k.1 := by
  refine dependsOn_item.bind fun i => .under fun hlike => ?_
  have hitem := hi.of_like hlike
  split
  · exact .pure fun _ hk => hk
  · next m hm =>
    split
    · exact .pure fun _ hk => hk
    · exact (dependsOn_store (dependsOn_findOrCreateChildTag (hc m hm) hitem.own hitem.derived)).bind
        fun tag => .pure fun _ hk => hk.2

/-- A save of a copy of the blueprint. -/
theorem dependsOn_save (write : Persist) :
    Action.DependsOn (bp.AtWork b i₀) (fun k => bp.Offers 0 k.1) (b.save c write) fun _ k =>
      bp.Offers 0 k.1 := by
  have hpersist : Action.DependsOn (bp.AtWork b i₀) (fun k => bp.Offers 0 k.1)
      (Rulebook.persist write) fun _ k => bp.Offers 0 k.1 := by
    refine dependsOn_item.bind fun i => .under fun _ => ?_
    exact .bind (dependsOn_modify (fun _ => rfl) fun _ => rfl) fun _ => .liftM fun _ _ _ hk => hk
  have happlied : Action.DependsOn (bp.AtWork b i₀) (fun k => bp.Offers 0 k.1)
      (Work.modifyItem Item.changesApplied) fun _ k => bp.Offers 0 k.1 :=
    dependsOn_modifyItem fun i h => ⟨h.key, h.migrationId, h.owner⟩
  refine (dependsOn_check hi.derived).bind fun checked => ?_
  split
  · exact .pure fun _ hk => hk
  · refine dependsOn_item.bind fun i => .under fun _ => ?_
    simp only
    split
    · refine .bind (.pure fun _ hk => hk) fun reconciliation => hpersist.bind fun _ => ?_
      exact happlied.bind fun _ => (dependsOn_tagCopy hi hc).bind fun _ => .pure fun _ hk => hk
    · refine (dependsOn_reconcile hi hc).bind fun reconciliation => hpersist.bind fun _ => ?_
      exact happlied.bind fun _ => (dependsOn_recordChanges hi none).bind fun _ => .pure fun _ hk => hk

end Saving

end Blueprint

end CourseBlueprint
