import CourseBlueprint.Proofs.Save.Evolution
import CourseBlueprint.Proofs.Save.LockQueries
import CourseBlueprint.Proofs.Save.Retries
import CourseBlueprint.Proofs.Store.Merging

/-!
# A user's save

A user saves a copy that was saved before. If the locks that the store shows for it forbid one of its
pending columns, the save is refused with the columns for which they do: each once, those of earlier
categories first (`Rulebook.listsForbidden_lockedAmong`). If not, the item is written as it is, and what
diverges by that is recorded for its owner (`Rulebook.user_save`).
-/

namespace CourseBlueprint

/-! ## The order of categories -/

/-- The place of a category in their order. -/
def Category.place (g : Category) : Nat := all.idxOf g

namespace Schema

/-- The entries of a schema are in the order of their categories. -/
theorem sorted_entries (s : Schema) : s.entries.Pairwise fun e e' => e.1.place < e'.1.place := by
  have hall : Category.all.Pairwise fun g g' => g.place < g'.place := by decide
  refine hall.filterMap _ fun g g' hlt e he e' he' => ?_
  obtain ⟨columns, -, rfl⟩ := Option.map_eq_some_iff.1 he
  obtain ⟨columns', -, rfl⟩ := Option.map_eq_some_iff.1 he'
  exact hlt

theorem eraseDups_of_nodup {columns : List String} (h : columns.Nodup) :
    columns.eraseDups = columns := by
  induction columns with
  | nil => rfl
  | cons x columns ih =>
    obtain ⟨hx, hrest⟩ := List.nodup_cons.1 h
    have hsame : columns.filter (fun column => !column == x) = columns := by
      refine List.filter_eq_self.2 fun column hcolumn => ?_
      have hne : column ≠ x := fun heq => hx (heq ▸ hcolumn)
      simpa using hne
    rw [List.eraseDups_cons, hsame, ih hrest]

/-- Different columns are added in their order, as far as they are not there yet. -/
theorem addColumns_eq_append {old new : List String} (hnew : new.Nodup) :
    addColumns old new = old ++ new.filter fun column => !decide (column ∈ old) := by
  rw [addColumns_eq, eraseDups_of_nodup (hnew.filter _)]

end Schema

/-! ## What a rejection lists -/

/-- The first of the locked categories that govern a column. -/
structure Restrictions.LocksFirst (r : Restrictions) (s : Schema) (g : Category) (column : String) :
    Prop where
  governs : column ∈ s.columns g
  locked : r.isLocked g = true
  first : ∀ g', column ∈ s.columns g' → r.isLocked g' = true → g.place ≤ g'.place

/-- Whether a column is listed before another one: its first locked category is earlier, or the same and
its name is smaller. -/
def Restrictions.Lists (r : Restrictions) (s : Schema) (x y : String) : Prop :=
  ∃ g g', r.LocksFirst s g x ∧ r.LocksFirst s g' y ∧ (g.place < g'.place ∨ g = g' ∧ x < y)

theorem Restrictions.Lists.ne {r : Restrictions} {s : Schema} {x y : String} (h : r.Lists s x y) :
    x ≠ y := by
  rintro rfl
  obtain ⟨g, g', hg, hg', hlt | ⟨-, hlt⟩⟩ := h
  · exact Nat.not_le.2 hlt (hg'.first g hg.governs hg.locked)
  · exact String.lt_irrefl x hlt

namespace Rulebook

variable {b : Rulebook} {r : Restrictions} {s : Schema} {i : Item}

/-- Whether locks forbid a user to save a column: it is pending, and a category with a lock of its own
governs it. -/
def Forbids (b : Rulebook) (r : Restrictions) (i : Item) (column : String) : Prop :=
  column ∈ i.pending.keys ∧ ∃ g, column ∈ (b.schemaOf i).columns g ∧ r.isLocked g = true

/-- How the columns are listed that locks forbid to save. -/
structure ListsForbidden (b : Rulebook) (r : Restrictions) (i : Item) (columns : List String) :
    Prop where
  mem_iff : ∀ column, column ∈ columns ↔ b.Forbids r i column
  nodup : columns.Nodup
  ordered : columns.Pairwise (r.Lists (b.schemaOf i))

theorem sorted_pendingWithin (i : Item) (columns : List String) :
    (pendingWithin i columns).Pairwise (· < ·) := i.pending.sorted_keys.filter _

/-- What is listed while some categories are still to come: it is in order, its first locked categories
are earlier ones, and nothing of the earlier ones is left out. -/
structure ListedSoFar (r : Restrictions) (s : Schema) (i : Item)
    (rest : List (Category × List String)) (acc : List String) : Prop where
  ordered : acc.Pairwise (r.Lists s)
  earlier : ∀ x ∈ acc, ∃ g, r.LocksFirst s g x ∧ ∀ e ∈ rest, g.place < e.1.place
  done : ∀ e ∈ s.entries, e ∈ rest ∨
    (r.isLocked e.1 = true → ∀ x ∈ e.2, x ∈ i.pending.keys → x ∈ acc)

/-- A column of a locked category that is not listed yet has none before it. -/
theorem ListedSoFar.locksFirst {g : Category} {columns : List String}
    {rest : List (Category × List String)} {acc : List String} {x : String}
    (h : ListedSoFar r s i ((g, columns) :: rest) acc) (hg : (g, columns) ∈ s.entries)
    (hrest : ∀ e ∈ rest, g.place < e.1.place) (hlocked : r.isLocked g = true) (hx : x ∈ columns)
    (hpending : x ∈ i.pending.keys) (hnew : x ∉ acc) : r.LocksFirst s g x := by
  refine ⟨Schema.mem_columns.2 ⟨columns, hg, hx⟩, hlocked, fun g' hgoverns hlocked' => ?_⟩
  obtain ⟨columns', hg', hx'⟩ := Schema.mem_columns.1 hgoverns
  rcases h.done (g', columns') hg' with hmem | hlisted
  · rcases List.mem_cons.1 hmem with heq | hmem
    · exact Nat.le_of_eq (congrArg Category.place (Prod.mk.inj heq).1.symm)
    · exact Nat.le_of_lt (hrest _ hmem)
  · exact absurd (hlisted hlocked' x hx' hpending) hnew

theorem ListedSoFar.earlier_rest {e : Category × List String} {rest : List (Category × List String)}
    {acc : List String} {x : String} (h : ListedSoFar r s i (e :: rest) acc) (hx : x ∈ acc) :
    ∃ g, r.LocksFirst s g x ∧ ∀ e' ∈ rest, g.place < e'.1.place := by
  obtain ⟨g, hg, hlt⟩ := h.earlier x hx
  exact ⟨g, hg, fun e' he' => hlt e' (List.mem_cons_of_mem _ he')⟩

/-- Nothing is listed for a category without a lock. -/
theorem ListedSoFar.pass {e : Category × List String} {rest : List (Category × List String)}
    {acc : List String} (h : ListedSoFar r s i (e :: rest) acc) (hfree : r.isLocked e.1 = false) :
    ListedSoFar r s i rest acc := by
  refine ⟨h.ordered, fun x hx => h.earlier_rest hx, fun e' he' => ?_⟩
  rcases h.done e' he' with hmem | hlisted
  · rcases List.mem_cons.1 hmem with rfl | hmem
    · exact .inr fun hlocked => absurd hlocked (by simp [hfree])
    · exact .inl hmem
  · exact .inr hlisted

/-- A locked category adds its pending columns behind those of earlier ones. -/
theorem ListedSoFar.add {g : Category} {columns : List String} {rest : List (Category × List String)}
    {acc : List String} (h : ListedSoFar r s i ((g, columns) :: rest) acc)
    (hg : (g, columns) ∈ s.entries) (hrest : ∀ e ∈ rest, g.place < e.1.place)
    (hlocked : r.isLocked g = true) :
    ListedSoFar r s i rest (Schema.addColumns acc (pendingWithin i columns)) := by
  have hnodup : (pendingWithin i columns).Nodup :=
    (sorted_pendingWithin i columns).imp fun {x y} (hlt : x < y) (heq : x = y) =>
      String.lt_irrefl y (heq ▸ hlt)
  have hfirst : ∀ x ∈ (pendingWithin i columns).filter (fun x => !decide (x ∈ acc)),
      r.LocksFirst s g x := by
    intro x hx
    obtain ⟨hpending, hnew⟩ := List.mem_filter.1 hx
    obtain ⟨hpending, hcolumn⟩ := mem_pendingWithin.1 hpending
    exact h.locksFirst hg hrest hlocked hcolumn hpending (by simpa using hnew)
  rw [Schema.addColumns_eq_append hnodup]
  refine ⟨?_, fun x hx => ?_, fun e he => ?_⟩
  · refine List.pairwise_append.2 ⟨h.ordered, ?_, fun x hx y hy => ?_⟩
    · -- within the category the names decide
      refine ((sorted_pendingWithin i columns).filter _).imp_of_mem fun hx hy hlt => ?_
      exact ⟨g, g, hfirst _ hx, hfirst _ hy, .inr ⟨rfl, hlt⟩⟩
    · obtain ⟨g', hg', hlt⟩ := h.earlier x hx
      exact ⟨g', g, hg', hfirst y hy, .inl (hlt (g, columns) List.mem_cons_self)⟩
  · rcases List.mem_append.1 hx with hx | hx
    · exact h.earlier_rest hx
    · exact ⟨g, hfirst x hx, hrest⟩
  · rcases h.done e he with hmem | hlisted
    · rcases List.mem_cons.1 hmem with rfl | hmem
      · refine .inr fun _ x hx hpending => List.mem_append.2 ?_
        by_cases hold : x ∈ acc
        · exact .inl hold
        · exact .inr (List.mem_filter.2 ⟨mem_pendingWithin.2 ⟨hpending, hx⟩, by simpa using hold⟩)
      · exact .inl hmem
    · exact .inr fun hon x hx hpending => List.mem_append_left _ (hlisted hon x hx hpending)

theorem ListedSoFar.step {e : Category × List String} {rest : List (Category × List String)}
    {acc : List String} (h : ListedSoFar r s i (e :: rest) acc) (he : e ∈ s.entries)
    (hrest : ∀ e' ∈ rest, e.1.place < e'.1.place) :
    ListedSoFar r s i rest
      (if r.isLocked e.1 then Schema.addColumns acc (pendingWithin i e.2) else acc) := by
  cases hlocked : r.isLocked e.1 with
  | false => exact h.pass hlocked
  | true => exact h.add he hrest hlocked

theorem ListedSoFar.lockedAmong {entries : List (Category × List String)} {acc : List String}
    (h : ListedSoFar r s i entries acc) (hmem : ∀ e ∈ entries, e ∈ s.entries)
    (hsorted : entries.Pairwise fun e e' => e.1.place < e'.1.place) :
    ListedSoFar r s i [] (lockedAmong r i entries acc) := by
  induction entries generalizing acc with
  | nil => exact h
  | cons e entries ih =>
    obtain ⟨hrest, hsorted⟩ := List.pairwise_cons.1 hsorted
    exact ih (h.step (hmem e List.mem_cons_self) hrest)
      (fun e' he' => hmem e' (List.mem_cons_of_mem _ he')) hsorted

/-- The check lists the columns that the locks forbid. -/
theorem listsForbidden_lockedAmong (b : Rulebook) (r : Restrictions) (i : Item) :
    b.ListsForbidden r i (lockedAmong r i (b.schemaOf i).entries []) := by
  have hlisted : ListedSoFar r (b.schemaOf i) i [] (lockedAmong r i (b.schemaOf i).entries []) := by
    refine ListedSoFar.lockedAmong ?_ (fun _ h => h) (Schema.sorted_entries _)
    exact ⟨.nil, fun _ h => absurd h List.not_mem_nil, fun e he => .inl he⟩
  refine ⟨fun column => ?_, hlisted.ordered.imp Restrictions.Lists.ne, hlisted.ordered⟩
  rw [mem_lockedAmong]
  constructor
  · rintro (h | ⟨hpending, ⟨g, columns⟩, hmem, hlocked, hcolumn⟩)
    · exact absurd h List.not_mem_nil
    · exact ⟨hpending, g, Schema.mem_columns.2 ⟨columns, hmem, hcolumn⟩, hlocked⟩
  · rintro ⟨hpending, g, hcolumn, hlocked⟩
    obtain ⟨columns, hmem, hcolumn⟩ := Schema.mem_columns.1 hcolumn
    exact .inr ⟨hpending, (g, columns), hmem, hlocked, hcolumn⟩

end Rulebook

/-! ## Looking leaves a store writable -/

theorem Store.keptByLooking_works : Store.KeptByLooking Store.Works := by
  refine fun ids => Action.keeps_iff.2 fun s hs => ?_
  obtain ⟨m | d, p⟩ := s
  · exact hs
  · have hplace : ((Directory.masterTagsOf ids).run d).2 = d := by
      rw [Directory.masterTagsOf, Directory.masterTags, Action.run_read (Directory.run_rows _ d)]
    rw [masterTagsWith, run_onPlace_directory, hplace]
    exact hs

namespace Rulebook

variable {b : Rulebook} {write : Persist} {d d₁ d' : Desk} {rows : List MasterTag}

/-! ## Checking -/

/-- Whether nothing stands against a user's save: content of its kind is never checked, or the locks
forbid none of its columns. -/
def Admits (b : Rulebook) (r : Restrictions) (i : Item) : Prop :=
  b.settings.exempt i.key.kind = true ∨ ∀ column, ¬ b.Forbids r i column

/-- The check of a copy that was saved before. -/
theorem run_check_user (hcopy : b.isCopy d.item = true) (hnew : d.item.isNew = false)
    (hmaster : d.store.seen.masterTags = .ok rows) : ∃ d₁, (b.check .user).run d =
      (.ok (if b.settings.exempt d.item.key.kind then .inl .unrestricted
        else checkOf (lockedAmong (d.item.locksFrom rows) d.item (b.schemaOf d.item).entries [])),
        d₁) := by
  cases hexempt : b.settings.exempt d.item.key.kind with
  | true => exact ⟨d, run_check_of_unrestricted (by simp [hexempt])⟩
  | false =>
    have happlies : (d.item.isNew || b.skips .user d.item ||
        b.settings.exempt d.item.key.kind) = false := by
      simp [hnew, skips, Context.isImport, Context.user, hcopy, hexempt]
    obtain ⟨s, -, hlocks⟩ := run_restrictionsInForce_of_seen (c := .user) rfl hmaster
    obtain ⟨d₁, -, hrun⟩ := run_check happlies hlocks rfl
    exact ⟨d₁, hrun⟩

theorem run_check_of_admits (hcopy : b.isCopy d.item = true) (hnew : d.item.isNew = false)
    (hmaster : d.store.seen.masterTags = .ok rows)
    (hadmits : b.Admits (d.item.locksFrom rows) d.item) : ∃ d₁, (b.check .user).run d =
      (.ok (.inl (if b.settings.exempt d.item.key.kind then .unrestricted else .accepted)), d₁) := by
  obtain ⟨d₁, hrun⟩ := run_check_user hcopy hnew hmaster
  refine ⟨d₁, hrun.trans ?_⟩
  cases hexempt : b.settings.exempt d.item.key.kind with
  | true => rfl
  | false =>
    have hnone : lockedAmong (d.item.locksFrom rows) d.item (b.schemaOf d.item).entries [] = [] := by
      refine List.eq_nil_iff_forall_not_mem.2 fun column hcolumn => ?_
      refine hadmits.resolve_left (by simp [hexempt]) column ?_
      exact ((listsForbidden_lockedAmong b _ _).mem_iff column).1 hcolumn
    rw [hnone]
    rfl

theorem run_check_of_not_admits (hcopy : b.isCopy d.item = true) (hnew : d.item.isNew = false)
    (hmaster : d.store.seen.masterTags = .ok rows)
    (hnot : ¬ b.Admits (d.item.locksFrom rows) d.item) : ∃ columns d₁,
      (b.check .user).run d = (.ok (.inr ⟨columns⟩), d₁) ∧
        b.ListsForbidden (d.item.locksFrom rows) d.item columns := by
  obtain ⟨d₁, hrun⟩ := run_check_user hcopy hnew hmaster
  have hlists := listsForbidden_lockedAmong b (d.item.locksFrom rows) d.item
  have hexempt : b.settings.exempt d.item.key.kind = false := by
    simpa using fun h => hnot (.inl h)
  have hsome : lockedAmong (d.item.locksFrom rows) d.item (b.schemaOf d.item).entries [] ≠ [] := by
    intro hnil
    refine hnot (.inr fun column hforbids => ?_)
    have hmem := (hlists.mem_iff column).2 hforbids
    rw [hnil] at hmem
    exact List.not_mem_nil hmem
  refine ⟨_, d₁, hrun.trans ?_, hlists⟩
  rw [hexempt, if_neg Bool.false_ne_true, checkOf_eq_inr.2 ⟨hsome, rfl⟩]

/-! ## Recording -/

/-- What the merge after a user's save tells, by what diverges and what is recorded for the owner. -/
def TellsMerge (b : Rulebook) (d : Desk) : Option Merge → Prop
  | none => ∀ column, ¬ b.Diverges d.item column
  | some .missing => (∃ column, b.Diverges d.item column) ∧
    d.store.stored.childTag? d.item.tagOwner = .ok none
  | some .unchanged => (∃ column, b.Diverges d.item column) ∧
    ∃ tag, d.store.stored.childTag? d.item.tagOwner = .ok (some tag) ∧
      ∀ column, b.Diverges d.item column → column ∈ tag.changes
  | some (.grew added) => (∃ column, column ∈ added) ∧
    ∃ tag, d.store.stored.childTag? d.item.tagOwner = .ok (some tag) ∧
      ∀ column, column ∈ added ↔ b.Diverges d.item column ∧ column ∉ tag.changes

/-- What recording a user's save leaves in the store. -/
structure RecordsDivergence (b : Rulebook) (d : Desk) (merge : Option Merge) (s : Store) : Prop where
  tells : b.TellsMerge d merge
  ownTag : ∀ tag, d.store.stored.childTag? d.item.tagOwner = .ok (some tag) →
    ∃ tag', s.stored.childTag? d.item.tagOwner = .ok (some tag') ∧
      ∀ column, column ∈ tag'.changes ↔ column ∈ tag.changes ∨ b.Diverges d.item column
  otherTags : ∀ content, content ≠ d.item.tagOwner ∨
      d.store.stored.childTag? content = .ok none →
    s.stored.childTag? content = d.store.stored.childTag? content
  otherTables : ∃ rows, s.stored = d.store.stored.withChildTags rows

theorem recordsDivergence_of_nothing {s : Store} {tags : List ChildTag}
    (htags : d.store.stored.childTags = .ok tags) (hstored : s.stored = d.store.stored)
    (hnone : ∀ column, ¬ b.Diverges d.item column) : b.RecordsDivergence d none s where
  tells := hnone
  ownTag tag htag := ⟨tag, by rw [hstored, htag], fun column => by simp [hnone]⟩
  otherTags content _ := by rw [hstored]
  otherTables := ⟨tags, hstored.trans (Stored.withChildTags_of_rows htags).symm⟩

theorem recordsDivergence_of_merges {s₁ s : Store} {tags : List ChildTag} {recorded : NameSet}
    {answer : Merge} (htags : d.store.stored.childTags = .ok tags)
    (hstored : s₁.stored = d.store.stored) (hsome : ∃ column, column ∈ recorded)
    (hrecorded : ∀ column, column ∈ recorded ↔ b.Diverges d.item column)
    (h : s₁.Merges ⟨d.item.tagOwner, recorded⟩ answer s) : b.RecordsDivergence d (some answer) s := by
  obtain ⟨column₀, hcolumn₀⟩ := hsome
  have hdiverges : ∃ column, b.Diverges d.item column := ⟨column₀, (hrecorded _).1 hcolumn₀⟩
  obtain ⟨tags', hstored', -⟩ := h.same_contents (hstored ▸ htags)
  refine ⟨?_, fun tag htag => ?_, ?_, ⟨tags', hstored ▸ hstored'⟩⟩
  · cases answer with
    | missing => exact ⟨hdiverges, hstored ▸ h.missing_iff.1 rfl⟩
    | unchanged =>
      obtain ⟨tag, htag, hincluded⟩ := h.unchanged_iff.1 rfl
      exact ⟨hdiverges, tag, hstored ▸ htag,
        fun column hcolumn => hincluded column ((hrecorded column).2 hcolumn)⟩
    | grew added =>
      obtain ⟨tag, htag, hadded, -⟩ := h.grew added rfl
      refine ⟨h.exists_added, tag, hstored ▸ htag, fun column => ?_⟩
      rw [hadded, NameSet.mem_diff, hrecorded]
  · obtain ⟨-, -, tag', htag', hchanges⟩ := h.of_held (hstored ▸ htag)
    refine ⟨tag', htag', fun column => ?_⟩
    rw [hchanges, NameSet.mem_union, hrecorded]
  · rintro content (hne | hnone)
    · rw [h.childTag?_of_ne (Ne.symm hne), hstored]
    · rw [h.childTag?_of_none (hstored ▸ hnone), hnone]

/-- What is recorded of an item once it is written is what diverged when its save began. -/
theorem mem_columnsToRecord_of_unmoved (hunmoved : d.Unmoved d₁) (column : String) :
    column ∈ b.columnsToRecord d₁.item.changesApplied none ↔ b.Diverges d.item column := by
  obtain ⟨kept, hitem⟩ := hunmoved.item
  rw [← diverges_iff, hitem, diverges_withRestrictions]

theorem skips_user_of_unmoved (hcopy : b.isCopy d.item = true) (hunmoved : d.Unmoved d₁) :
    b.skips .user d₁.item.changesApplied = false := by
  obtain ⟨kept, hitem⟩ := hunmoved.item
  have hcopy₁ : b.isCopy d₁.item.changesApplied = true := by
    rw [hitem]
    exact hcopy
  simp [skips, Context.isImport, Context.user, hcopy₁]

/-- Recording what a user has saved of a copy, whose item may have its locks kept with it by now. -/
theorem recordChanges_user (hclock : d.store.supply.ShowsDates) (hcopy : b.isCopy d.item = true)
    {tags : List ChildTag} (htags : d.store.stored.childTags = .ok tags)
    (hunmoved : d.Unmoved d₁) (hworks : d.store.Works → d₁.store.Works) :
    (∃ merge s, (b.recordChanges .user none).run d₁.handOver.applied =
        (.ok merge, { d₁.handOver.applied with store := s }) ∧ b.RecordsDivergence d merge s) ∨
      ¬ d.store.Works ∧ ∃ e s, (b.recordChanges .user none).run d₁.handOver.applied =
        (.error e, { d₁.handOver.applied with store := s }) ∧ s.stored = d.store.stored := by
  have hclock₁ : d₁.store.supply.ShowsDates := hunmoved.store.supply ▸ hclock
  have htags₁ : d₁.store.stored.childTags = .ok tags := by rw [hunmoved.store.stored, htags]
  have hskips := skips_user_of_unmoved hcopy hunmoved
  have hdiverges := mem_columnsToRecord_of_unmoved (b := b) hunmoved
  have howner : d₁.item.changesApplied.tagOwner = d.item.tagOwner := by
    obtain ⟨kept, hitem⟩ := hunmoved.item
    rw [hitem]
    rfl
  cases hnone : (b.columnsToRecord d₁.item.changesApplied none).isEmpty with
  | true =>
    have hrecord := run_recordChanges_of_nothing (d := d₁.handOver.applied) hskips hnone
    refine .inl ⟨none, d₁.store, hrecord, ?_⟩
    refine recordsDivergence_of_nothing htags hunmoved.store.stored fun column hcolumn => ?_
    exact NameSet.isEmpty_iff.1 hnone column ((hdiverges column).2 hcolumn)
  | false =>
    rcases hrun : (Store.mergeChanges d₁.item.changesApplied.tagOwner
      (b.columnsToRecord d₁.item.changesApplied none)).run d₁.store with ⟨e | answer, s⟩
    · have hrecord := run_recordChanges_of_merge (d := d₁.handOver.applied) hskips hnone hrun
      refine .inr ⟨fun hd => ?_, e, s, hrecord, ?_⟩
      · obtain ⟨answer, s', hanswer, -⟩ := Store.mergeChanges_answers hclock₁ (hworks hd) htags₁
          d₁.item.changesApplied.tagOwner (b.columnsToRecord d₁.item.changesApplied none)
        rw [hrun] at hanswer
        cases (Prod.mk.inj hanswer).1
      · cases recorded (d := d₁.handOver.applied) hclock₁ hrecord with
        | refused _ _ hstored => exact hstored.trans hunmoved.store.stored
    · have hrecord := run_recordChanges_of_merge (d := d₁.handOver.applied) hskips hnone hrun
      refine .inl ⟨some answer, s, hrecord, ?_⟩
      rw [howner] at hrun
      exact recordsDivergence_of_merges htags hunmoved.store.stored
        (NameSet.exists_mem_of_isEmpty_eq_false hnone) hdiverges
        (Store.merges_of_run hclock₁ htags₁ hrun)

/-! ## The save -/

/-- What a user's save of a copy leaves that is answered as saved. -/
structure UserSaved (b : Rulebook) (d : Desk) (report : SaveReport) (d' : Desk) : Prop where
  check : report.check = if b.settings.exempt d.item.key.kind then .unrestricted else .accepted
  reconciliation : report.reconciliation = .noOverlap
  /-- The item was handed over once, with the attributes it had. -/
  handed : d'.handed = d.handed ++ [d.item.attributes]
  skipped : d'.skipped = d.skipped
  item : ∃ kept, d'.item = { d.item.changesApplied with childRestrictions := kept }
  store : b.RecordsDivergence d report.merge d'.store

theorem run_save_of_check {k : Check} (hcheck : (b.check .user).run d = (.ok (.inl k), d₁))
    (hnew : d₁.item.isNew = false) (write : Persist) :
    (b.save .user write).run d = match write d₁.item with
      | .error e => (.error e, d₁.handOver)
      | .ok _ => ((b.recordChanges .user none) >>= fun merge =>
          pure (.saved ⟨k, .noOverlap, merge⟩)).run d₁.handOver.applied := by
  rw [save_eq, Action.run_bind_ok hcheck]
  simp only
  rw [Action.run_bind_ok (Work.run_item d₁),
    Action.run_bind_ok (run_prepare_of_idle (.inr (.inl rfl))), Action.run_bind, run_persist]
  cases write d₁.item with
  | error e => rfl
  | ok u =>
    simp only
    rw [Action.run_bind_ok (Work.run_modifyItem _ _), hnew]
    rfl

/-- A user's save of a copy that was saved before is decided by the locks that the store shows for it. If
they forbid it, it is refused with the columns for which they do, and nothing has changed. If not, the
item is handed over as it is; if it can be written, the save is answered, unless the store does not take
writes, and the columns that diverge are recorded for its owner. -/
theorem user_save (hclock : d.store.supply.ShowsDates) (hcopy : b.isCopy d.item = true)
    (hnew : d.item.isNew = false) (hmaster : d.store.seen.masterTags = .ok rows)
    {tags : List ChildTag} (htags : d.store.stored.childTags = .ok tags) (write : Persist) :
    (¬ b.Admits (d.item.locksFrom rows) d.item → ∃ columns d',
      (b.save .user write).run d = (.ok (.rejected ⟨columns⟩), d') ∧
        b.ListsForbidden (d.item.locksFrom rows) d.item columns ∧ d.Unmoved d') ∧
    (b.Admits (d.item.locksFrom rows) d.item → ∃ d₁, d.Unmoved d₁ ∧
      (∀ e, write d₁.item = .error e → (b.save .user write).run d = (.error e, d₁.handOver)) ∧
      (write d₁.item = .ok () →
        (∃ report d', (b.save .user write).run d = (.ok (.saved report), d') ∧
          b.UserSaved d report d') ∨
        ¬ d.store.Works ∧ ∃ e s, (b.save .user write).run d =
          (.error e, { d₁.handOver.applied with store := s }) ∧ s.stored = d.store.stored)) := by
  constructor
  · intro hnot
    obtain ⟨columns, d₁, hcheck, hlists⟩ := run_check_of_not_admits hcopy hnew hmaster hnot
    refine ⟨columns, d₁, ?_, hlists, unmoved_of_check hcheck⟩
    rw [save_eq, Action.run_bind_ok hcheck]
    rfl
  · intro hadmits
    obtain ⟨d₁, hcheck⟩ := run_check_of_admits hcopy hnew hmaster hadmits
    have hunmoved := unmoved_of_check hcheck
    obtain ⟨kept, hitem⟩ := hunmoved.item
    have hrun := run_save_of_check hcheck (by rw [hitem]; exact hnew) write
    refine ⟨d₁, hunmoved, fun e hwrite => ?_, fun hwrite => ?_⟩
    · rw [hrun, hwrite]
    · rw [hwrite] at hrun
      have hworks : d.store.Works → d₁.store.Works :=
        (keeps_check Store.keptByLooking_works).of_run hcheck
      rcases recordChanges_user hclock hcopy htags hunmoved hworks with
        ⟨merge, s, hrecord, hdivergence⟩ | ⟨hnot, e, s, hrecord, hstored⟩
      · refine .inl ⟨⟨_, .noOverlap, merge⟩, _, hrun.trans (Action.run_bind_ok hrecord), ?_⟩
        refine ⟨rfl, rfl, ?_, hunmoved.skipped, ⟨kept, ?_⟩, hdivergence⟩
        · show d₁.handed ++ [d₁.item.attributes] = _
          rw [hunmoved.handed, hitem]
        · show d₁.item.changesApplied = _
          rw [hitem]
          rfl
      · exact .inr ⟨hnot, e, s, hrun.trans (Action.run_bind_error hrecord), hstored⟩

end Rulebook

/-! ## A page with and without a lock -/

namespace Sample

/-- The copy with a new body, while the content of the page is locked. -/
def lockedDesk : Desk :=
  { desk [] with
    store := ⟨.memory { Memory.empty with
      tables := { Tables.empty with
        masterTags := [pageTag ⟨1⟩ migrationId]
        childTags := [tag page []] } }, supply⟩ }

/-- The new body is refused under the lock, and saved without it. -/
theorem user_save_body :
    (∃ columns d', (rulebook.save .user .noop).run lockedDesk = (.ok (.rejected ⟨columns⟩), d') ∧
      rulebook.ListsForbidden (lockedDesk.item.locksFrom [pageTag ⟨1⟩ migrationId]) edited columns ∧
      lockedDesk.Unmoved d') ∧
    ∃ report d', (rulebook.save .user .noop).run (desk []) = (.ok (.saved report), d') ∧
      rulebook.UserSaved (desk []) report d' := by
  constructor
  · refine (Rulebook.user_save (d := lockedDesk) showsDates_supply rfl rfl rfl rfl .noop).1 ?_
    rintro (hexempt | hadmits)
    · cases hexempt
    · exact hadmits "body" ⟨by decide, .content, by decide, rfl⟩
  · have hadmits : rulebook.Admits ((desk []).item.locksFrom []) (desk []).item := by
      refine .inr fun column hforbids => ?_
      obtain ⟨-, g, -, hlocked⟩ := hforbids
      cases g with
      | _ => cases hlocked
    obtain ⟨d₁, -, -, hsaved⟩ :=
      (Rulebook.user_save (d := desk []) showsDates_supply rfl rfl rfl rfl .noop).2 hadmits
    exact (hsaved rfl).resolve_right fun hrefused => hrefused.1 rfl

end Sample

end CourseBlueprint
