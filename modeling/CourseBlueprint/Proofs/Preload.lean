import CourseBlueprint.Preload
import CourseBlueprint.Proofs.Command.Resync
import CourseBlueprint.Proofs.Store.Twins

/-!
# Looking up many locks at once

One look-up of many migration identifiers finds for each what a look-up of its own would have found
(`restrictionsIn_eq_locksUnder`), if there is one master tag at most under an identifier. So looking up
the locks of many items gives each that qualifies the locks that are held for it, after one look-up of
master tags or, if none qualifies, after none (`run_fill`).
-/

namespace CourseBlueprint

namespace Store

/-- The store with a look-up of master tags noted, which only tables in memory do. -/
def noting (s : Store) (ids : List String) : Store :=
  match s.place with
  | .memory m => { s with place := .memory { m with lookups := m.lookups ++ [ids] } }
  | .directory _ => s

theorem alike_noting (s : Store) (ids : List String) : s.Alike (s.noting ids) := by
  obtain ⟨m | d, p⟩ := s
  · exact ⟨rfl, rfl, rfl⟩
  · exact .refl _

/-- A look-up of master tags finds those with the given identifiers, each once at least, and is
noted. -/
theorem run_masterTagsWith_of_seen {s : Store} {rows : List MasterTag}
    (hrows : s.seen.masterTags = .ok rows) (hnodup : (rows.map MasterTag.migrationId).Nodup)
    (ids : List String) : ∃ tags, (masterTagsWith ids).run s = (.ok tags, s.noting ids) ∧
      ∀ t, t ∈ tags ↔ t ∈ rows ∧ t.migrationId ∈ ids := by
  have hrun := run_masterTags s
  obtain ⟨m | d, p⟩ := s
  · obtain rfl := Except.ok.inj hrows
    have hselects : Selects m.tables ids _ := selects_filterMap hnodup
    exact ⟨_, rfl, hselects.mem_iff⟩
  · rw [hrows, masterTags, run_onPlace_directory] at hrun
    have hread : Directory.masterTags.run d = (.ok rows, d) := by
      obtain ⟨hanswer, hstore⟩ := Prod.mk.inj hrun
      refine Prod.ext hanswer ?_
      injection hstore with hplace
      injection hplace
    refine ⟨rows.filter fun t => decide (t.migrationId ∈ ids), ?_, fun t => ?_⟩
    · rw [masterTagsWith, run_onPlace_directory, Directory.masterTagsOf, Action.run_bind_ok hread]
      rfl
    · rw [List.mem_filter, decide_eq_true_iff]

/-- A look-up under one migration identifier finds the row that has it. -/
theorem run_masterTag?_of_seen {s : Store} {rows : List MasterTag}
    (hrows : s.seen.masterTags = .ok rows) (hnodup : (rows.map MasterTag.migrationId).Nodup)
    (id : String) : (masterTag? id).run s =
      (.ok (rows.find? fun t => t.migrationId = id), s.noting [id]) := by
  obtain ⟨tags, hrun, -⟩ := run_masterTagsWith_of_seen hrows hnodup [id]
  have hends : (masterTag? id).run s = (.ok tags.head?, s.noting [id]) := Action.run_bind_ok hrun
  obtain ⟨s', -, hfound⟩ := run_masterTag? id s
  rw [hrows] at hfound
  rw [hends] at hfound ⊢
  exact Prod.ext (Prod.mk.inj hfound).1 rfl

end Store

namespace Preload

/-! ## Migration identifiers -/

/-- Of different identifiers none is left out. -/
theorem mem_distinct {ids : List String} {id : String} (h : id ∈ ids) : id ∈ distinct ids := by
  have hfold : ∀ (ids acc : List String), id ∈ acc ∨ id ∈ ids →
      id ∈ ids.foldl (fun acc id => if id ∈ acc then acc else acc ++ [id]) acc := by
    intro ids
    induction ids with
    | nil =>
      rintro acc (h | h)
      · exact h
      · exact absurd h List.not_mem_nil
    | cons x ids ih =>
      intro acc h
      rw [List.foldl_cons]
      refine ih _ ?_
      grind
  exact hfold ids [] (.inr h)

theorem isEmpty_distinct {ids : List String} (h : ids.isEmpty = false) :
    (distinct ids).isEmpty = false := by
  cases ids with
  | nil => cases h
  | cons id ids => exact List.isEmpty_eq_false_iff_exists_mem.2 ⟨id, mem_distinct List.mem_cons_self⟩

/-! ## What is found -/

/-- Rows that have all with an identifier of some that are held tell what these tell of it. -/
theorem restrictionsIn_eq_locksUnder {rows tags : List MasterTag}
    (hnodup : (rows.map MasterTag.migrationId).Nodup) {id : String}
    (hheld : ∀ t ∈ tags, t ∈ rows) (hall : ∀ t ∈ rows, t.migrationId = id → t ∈ tags) :
    restrictionsIn (tags.map fun t => (t.migrationId, t.restrictions)) id =
      MasterTag.locksUnder rows id :=
  MasterTag.locks_ofList hnodup hheld hall

variable {idOf : Item → Option String} {template? : Option Uuid} {give : Restrictions → Item → Item}
  {items : List Item}

/-- The items after a look-up that found the given rows. -/
def filled (idOf : Item → Option String) (template? : Option Uuid) (give : Restrictions → Item → Item)
    (rows : List MasterTag) (i : Item) : Item :=
  match idOf i with
  | none => i
  | some id =>
    give (MasterTag.locksUnder (rows.filter fun t => template?.all fun u => t.templateId = u) id) i

theorem fill_of_isEmpty (h : (items.filterMap idOf).isEmpty = true) :
    fill idOf template? give items = pure (0, items) := by
  unfold fill
  rw [if_pos h]

variable (template? give) in
/-- If any item qualifies, there is one look-up of master tags, and nothing else is asked. -/
theorem fill_eq_map (h : (items.filterMap idOf).isEmpty = false) :
    ∃ f, fill idOf template? give items =
      f <$> Store.masterTagsWith (distinct (items.filterMap idOf)) := by
  refine ⟨fun tags => ((items.filterMap idOf).length, items.map fun i => match idOf i with
    | none => i
    | some id => give (restrictionsIn ((tags.filter fun t =>
        template?.all fun u => t.templateId = u).map fun t => (t.migrationId, t.restrictions)) id) i), ?_⟩
  rw [fill, if_neg (by simp [h]), Store.restrictionsOf, if_neg (by simp [isEmpty_distinct h]),
    bind_assoc, map_eq_pure_bind]
  rfl

/-- What a look-up for many items does: an item that qualifies gets the locks that are held for it. -/
theorem run_fill {s : Store} {rows : List MasterTag} (hrows : s.seen.masterTags = .ok rows)
    (hnodup : (rows.map MasterTag.migrationId).Nodup) :
    (fill idOf template? give items).run s =
      (.ok ((items.filterMap idOf).length, items.map (filled idOf template? give rows)),
        if (items.filterMap idOf).isEmpty then s
        else s.noting (distinct (items.filterMap idOf))) := by
  cases hempty : (items.filterMap idOf).isEmpty with
  | true =>
    -- no item qualifies
    have hnone : ∀ i ∈ items, idOf i = none :=
      List.filterMap_eq_nil_iff.1 (List.isEmpty_iff.1 hempty)
    have hsame : items.map (filled idOf template? give rows) = items := by
      refine (List.map_congr_left fun i hi => ?_).trans (List.map_id items)
      rw [filled, hnone i hi]
      rfl
    rw [fill_of_isEmpty hempty, hsame, List.isEmpty_iff.1 hempty]
    rfl
  | false =>
    obtain ⟨tags, hrun, htags⟩ := Store.run_masterTagsWith_of_seen hrows hnodup
      (distinct (items.filterMap idOf))
    rw [fill, if_neg (by simp [hempty]), Store.restrictionsOf, if_neg (by simp [isEmpty_distinct hempty]),
      bind_assoc, Action.run_bind_ok hrun]
    refine Prod.ext (congrArg (fun is => Except.ok (_, is)) (List.map_congr_left fun i hi => ?_)) rfl
    cases hid : idOf i with
    | none => rw [filled, hid]
    | some id =>
      have hasked : id ∈ distinct (items.filterMap idOf) :=
        mem_distinct (List.mem_filterMap.2 ⟨i, hi, hid⟩)
      simp only [filled, hid]
      rw [restrictionsIn_eq_locksUnder (hnodup.sublist (List.filter_sublist.map _))]
      · intro t ht
        obtain ⟨ht, hours⟩ := List.mem_filter.1 ht
        exact List.mem_filter.2 ⟨((htags t).1 ht).1, hours⟩
      · intro t ht hsame
        obtain ⟨ht, hours⟩ := List.mem_filter.1 ht
        exact List.mem_filter.2 ⟨(htags t).2 ⟨ht, hsame ▸ hasked⟩, hours⟩

end Preload

end CourseBlueprint
