import CourseBlueprint.Proofs.Store.Directory
import CourseBlueprint.Store.Basic

/-!
# What the operations of a store do

A store holds rows (`Store.stored`) whether they are in memory or in files, and shows them
(`Store.seen`) once its place is open. Reading shows what is held. Each operation that writes
`Performs` a function on what is held: it fails without an effect on any table, or it has the answer
and the effect of that function. Where writing works (`Store.Works`), it fails only if the table
cannot be read.
-/

namespace CourseBlueprint

/-- The rows of each table, or why there are none. -/
@[ext] structure Stored where
  templates : Result (List Template)
  subscriptions : Result (List Subscription)
  masterTags : Result (List MasterTag)
  childTags : Result (List ChildTag)

/-- What the tables are kept in: the rows themselves in memory, and what stands for the file of each
table in a directory. -/
inductive Holdings where
  | rows (tables : Tables)
  | files (templates subscriptions masterTags childTags : Option Entry)
deriving DecidableEq

/-- Tables that can all be read. -/
def Stored.of (ts : Tables) : Stored :=
  ⟨.ok ts.templates, .ok ts.subscriptions, .ok ts.masterTags, .ok ts.childTags⟩

theorem Stored.of_inj {ts ts' : Tables} (h : Stored.of ts = .of ts') : ts = ts' := by
  obtain ⟨templates, subscriptions, masterTags, childTags⟩ := ts
  obtain ⟨templates', subscriptions', masterTags', childTags'⟩ := ts'
  simp only [Stored.of, Stored.mk.injEq, Except.ok.injEq] at h
  obtain ⟨rfl, rfl, rfl, rfl⟩ := h
  rfl

namespace Tables

variable {α : Type}

/-- Adding a row unless one passes a test: the row that is there, and the rows after, if they are
others. -/
def insertUnless (test : α → Bool) (row : α) (rows : List α) : α × Option (List α) :=
  match rows.find? test with
  | some found => (found, none)
  | none => (row, some (rows ++ [row]))

/-- Working on the child tag of a piece of content: the answer if there is one, and the rows after,
if they are others. -/
def updateChildTag (content : ContentKey) (update : ChildTag → α × Option ChildTag)
    (rows : List ChildTag) : Option α × Option (List ChildTag) :=
  match rows.find? fun t => t.content = content with
  | none => (none, none)
  | some tag =>
    (some (update tag).1,
      (update tag).2.map fun tag' => replaceFirst (fun t => t.content = content) tag' rows)

theorem mem_replaceFirst {test : α → Bool} {row a : α} {rows : List α}
    (h : a ∈ replaceFirst test row rows) : a = row ∨ a ∈ rows := by
  induction rows with
  | nil => exact absurd h List.not_mem_nil
  | cons r rows ih =>
    unfold replaceFirst at h
    split at h
    · rcases List.mem_cons.1 h with h | h
      · exact .inl h
      · exact .inr (List.mem_cons_of_mem _ h)
    · rcases List.mem_cons.1 h with rfl | h
      · exact .inr List.mem_cons_self
      · exact (ih h).imp id (List.mem_cons_of_mem _)

/-- The first row that passes a test is replaced in its place. -/
theorem replaceFirst_eq_append {test : α → Bool} {found : α} {rows : List α}
    (h : rows.find? test = some found) (row : α) :
    ∃ before after, rows = before ++ found :: after ∧ (∀ a ∈ before, test a = false) ∧
      test found = true ∧ replaceFirst test row rows = before ++ row :: after := by
  induction rows with
  | nil => cases h
  | cons r rows ih =>
    unfold replaceFirst
    cases hr : test r with
    | true =>
      rw [List.find?_cons_of_pos hr] at h
      obtain rfl := Option.some.inj h
      exact ⟨[], rows, rfl, fun _ ha => absurd ha List.not_mem_nil, hr, rfl⟩
    | false =>
      rw [List.find?_cons_of_neg (by simp [hr])] at h
      obtain ⟨before, after, hrows, hbefore, hfound, hreplaced⟩ := ih h
      refine ⟨r :: before, after, by rw [hrows]; rfl, List.forall_mem_cons.2 ⟨hr, hbefore⟩, hfound, ?_⟩
      rw [if_neg Bool.false_ne_true, hreplaced]
      rfl

theorem mem_upsert {test : α → Bool} {row a : α} {rows : List α} (h : a ∈ upsert test row rows) :
    a = row ∨ a ∈ rows := by
  unfold upsert at h
  split at h
  · exact mem_replaceFirst h
  · rcases List.mem_append.1 h with h | h
    · exact .inr h
    · exact .inl (List.mem_singleton.1 h)

theorem good_updateChildTag {β : Type} {Good : ChildTag → Prop} {content : ContentKey}
    {update : ChildTag → β × Option ChildTag}
    (hupdate : ∀ t t', Good t → (update t).2 = some t' → Good t') {rows new : List ChildTag}
    (hrows : ∀ t ∈ rows, Good t) (hnew : (updateChildTag content update rows).2 = some new) :
    ∀ t ∈ new, Good t := by
  unfold updateChildTag at hnew
  split at hnew
  · cases hnew
  · next tag hfind =>
    obtain ⟨tag', htag', rfl⟩ := Option.map_eq_some_iff.1 hnew
    intro t ht
    rcases mem_replaceFirst ht with rfl | ht
    · exact hupdate tag t (hrows tag (List.mem_of_find?_eq_some hfind)) htag'
    · exact hrows t ht

end Tables

namespace Store

/-! ## What a store holds and shows -/

/-- The rows that a store holds. -/
def stored (s : Store) : Stored :=
  match s.place with
  | .memory m => .of m.tables
  | .directory d =>
    ⟨d.stored Directory.templateTable, d.stored Directory.subscriptionTable,
      d.stored Directory.masterTagTable, d.stored Directory.childTagTable⟩

/-- What a store keeps its tables in. -/
def holdings (s : Store) : Holdings :=
  match s.place with
  | .memory m => .rows m.tables
  | .directory d =>
    .files (d.entries.get? Directory.templateTable.file)
      (d.entries.get? Directory.subscriptionTable.file)
      (d.entries.get? Directory.masterTagTable.file) (d.entries.get? Directory.childTagTable.file)

/-- Whether the place of the tables is there. -/
def isOpen (s : Store) : Bool :=
  match s.place with
  | .memory _ => true
  | .directory d => d.isPresent

/-- The rows that reading shows. -/
def seen (s : Store) : Stored := if s.isOpen then s.stored else .of .empty

/-- Stores that differ in nothing but the look-ups they noted. -/
structure Alike (s s' : Store) : Prop where
  stored : s'.stored = s.stored
  isOpen : s'.isOpen = s.isOpen
  supply : s'.supply = s.supply

/-- Whether writing works where the tables are: writes in memory are not refused, or the directory can
be written. -/
def Works (s : Store) : Prop :=
  match s.place with
  | .memory m => m.writesFail = false
  | .directory d => d.Works

theorem seen_of_isOpen {s : Store} (h : s.isOpen = true) : s.seen = s.stored := if_pos h

/-- What is kept in the same way holds the same. -/
theorem stored_eq_of_holdings_eq {s s' : Store} (h : s'.holdings = s.holdings) :
    s'.stored = s.stored := by
  obtain ⟨m | d, p⟩ := s
  · obtain ⟨m' | d', p'⟩ := s'
    · exact congrArg Stored.of (Holdings.rows.inj h)
    · cases h
  · obtain ⟨m' | d', p'⟩ := s'
    · cases h
    · obtain ⟨htemplates, hsubscriptions, hmasterTags, hchildTags⟩ := Holdings.files.inj h
      exact Stored.ext (Directory.stored_congr htemplates) (Directory.stored_congr hsubscriptions)
        (Directory.stored_congr hmasterTags) (Directory.stored_congr hchildTags)

theorem Alike.refl (s : Store) : s.Alike s := ⟨rfl, rfl, rfl⟩

theorem Alike.trans {s s' s'' : Store} (h : s.Alike s') (h' : s'.Alike s'') : s.Alike s'' :=
  ⟨h'.stored.trans h.stored, h'.isOpen.trans h.isOpen, h'.supply.trans h.supply⟩

theorem Alike.seen {s s' : Store} (h : s.Alike s') : s'.seen = s.seen := by
  unfold Store.seen
  rw [h.isOpen, h.stored]

/-! ## Reading -/

variable {α : Type}

theorem run_onPlace_memory (x : Action Memory α) (y : Action Directory α) (m : Memory)
    (p : Supply) : (onPlace x y).run ⟨.memory m, p⟩ = ((x.run m).1, ⟨.memory (x.run m).2, p⟩) := rfl

theorem run_onPlace_directory (x : Action Memory α) (y : Action Directory α) (d : Directory)
    (p : Supply) :
    (onPlace x y).run ⟨.directory d, p⟩ = ((y.run d).1, ⟨.directory (y.run d).2, p⟩) := rfl

/-- Reading one table shows what is seen of it. -/
theorem run_onPlace_rows {x : Action Memory (List α)} {table : Table α}
    {g : Stored → Result (List α)} (hmemory : ∀ m, x.run m = (g (.of m.tables), m))
    (hdirectory : ∀ d p, g (stored ⟨.directory d, p⟩) = d.stored table)
    (hempty : g (.of .empty) = .ok []) (s : Store) :
    (onPlace x (Directory.rows table)).run s = (g s.seen, s) := by
  obtain ⟨m | d, p⟩ := s
  · rw [run_onPlace_memory, hmemory]
    rfl
  · rw [run_onPlace_directory, Directory.run_rows]
    cases hd : d.isPresent with
    | true => rw [Directory.read_eq_stored hd, seen_of_isOpen (s := ⟨.directory d, p⟩) hd,
        hdirectory]
    | false =>
      have hseen : seen ⟨.directory d, p⟩ = .of .empty := if_neg (by simp [isOpen, hd])
      rw [Directory.read_of_not_present hd, hseen, hempty]

theorem run_templates (s : Store) : templates.run s = (s.seen.templates, s) :=
  run_onPlace_rows (g := Stored.templates) (fun _ => rfl) (fun _ _ => rfl) rfl s

theorem run_subscriptions (s : Store) : subscriptions.run s = (s.seen.subscriptions, s) :=
  run_onPlace_rows (g := Stored.subscriptions) (fun _ => rfl) (fun _ _ => rfl) rfl s

theorem run_masterTags (s : Store) : masterTags.run s = (s.seen.masterTags, s) :=
  run_onPlace_rows (g := Stored.masterTags) (fun _ => rfl) (fun _ _ => rfl) rfl s

theorem run_childTags (s : Store) : childTags.run s = (s.seen.childTags, s) :=
  run_onPlace_rows (g := Stored.childTags) (fun _ => rfl) (fun _ _ => rfl) rfl s

/-! ## Writing -/

/-- One of the four tables: where its rows are held, in a place of either sort. -/
structure Shelf (α : Type) where
  table : Table α
  rows : Stored → Result (List α)
  put : List α → Stored → Stored

/-- What is held after the rows of one table are revised, and the answer. -/
def Shelf.revise {β : Type} (shelf : Shelf α) (f : List α → β × Option (List α)) (st : Stored) :
    Result (β × Stored) :=
  (shelf.rows st).map fun rows =>
    ((f rows).1, match (f rows).2 with
      | none => st
      | some new => shelf.put new st)

/-- The end of an operation: it failed and all rows are as they were, or it answered and left what
`f` says of the rows there were, which it does where writing works and `f` has an answer. If it has
written anything, writing works. -/
structure Performed (s : Store) (f : Stored → Result (α × Stored)) (r : Result α) (s' : Store) :
    Prop where
  supply : s'.supply = s.supply
  isOpen : s.isOpen = true → s'.isOpen = true
  ends : (∃ e, r = .error e ∧ s'.stored = s.stored) ∨
    ∃ a, f s.stored = .ok (a, s'.stored) ∧ r = .ok a ∧ s'.isOpen = true
  works : s.Works → s'.Works ∧ ∀ e, r = .error e → f s.stored = .error e
  kept : s'.holdings = s.holdings ∨ (∃ a, r = .ok a) ∧ s'.Works

def templateShelf : Shelf Template :=
  ⟨Directory.templateTable, Stored.templates, fun rows st => { st with templates := .ok rows }⟩

def subscriptionShelf : Shelf Subscription :=
  ⟨Directory.subscriptionTable, Stored.subscriptions,
    fun rows st => { st with subscriptions := .ok rows }⟩

def masterTagShelf : Shelf MasterTag :=
  ⟨Directory.masterTagTable, Stored.masterTags, fun rows st => { st with masterTags := .ok rows }⟩

def childTagShelf : Shelf ChildTag :=
  ⟨Directory.childTagTable, Stored.childTags, fun rows st => { st with childTags := .ok rows }⟩

/-- How a shelf is found in a directory: its rows are in its file, and the other tables in theirs. -/
structure Shelf.Sound (shelf : Shelf α) (Good : α → Prop) : Prop where
  table : shelf.table.Sound Good
  rows_eq : ∀ d p, shelf.rows (stored ⟨.directory d, p⟩) = d.stored shelf.table
  put_eq : ∀ {d d' new} p, d'.stored shelf.table = .ok new →
    (∀ (β : Type) (other : Table β), other.file ≠ Directory.lockFile →
      other.file ≠ shelf.table.file → d'.stored other = d.stored other) →
    stored ⟨.directory d', p⟩ = shelf.put new (stored ⟨.directory d, p⟩)

theorem templateShelf_sound : templateShelf.Sound Template.IsDated where
  table := Directory.templateTable_sound
  rows_eq := fun _ _ => rfl
  put_eq := fun _ h hother => Stored.ext h (hother _ _ (by decide) (by decide))
    (hother _ _ (by decide) (by decide)) (hother _ _ (by decide) (by decide))

theorem subscriptionShelf_sound : subscriptionShelf.Sound fun _ => True where
  table := Directory.subscriptionTable_sound
  rows_eq := fun _ _ => rfl
  put_eq := fun _ h hother => Stored.ext (hother _ _ (by decide) (by decide)) h
    (hother _ _ (by decide) (by decide)) (hother _ _ (by decide) (by decide))

theorem masterTagShelf_sound : masterTagShelf.Sound MasterTag.IsDated where
  table := Directory.masterTagTable_sound
  rows_eq := fun _ _ => rfl
  put_eq := fun _ h hother => Stored.ext (hother _ _ (by decide) (by decide))
    (hother _ _ (by decide) (by decide)) h (hother _ _ (by decide) (by decide))

theorem childTagShelf_sound : childTagShelf.Sound ChildTag.IsDated where
  table := Directory.childTagTable_sound
  rows_eq := fun _ _ => rfl
  put_eq := fun _ h hother => Stored.ext (hother _ _ (by decide) (by decide))
    (hother _ _ (by decide) (by decide)) (hother _ _ (by decide) (by decide)) h

theorem stored_of_sameTables {d d' : Directory} (p : Supply) (h : Directory.SameTables d d') :
    stored ⟨.directory d', p⟩ = stored ⟨.directory d, p⟩ :=
  Stored.ext (h _ _ (by decide)) (h _ _ (by decide)) (h _ _ (by decide)) (h _ _ (by decide))

theorem holdings_of_sameFiles {d d' : Directory} (p : Supply) (h : Directory.SameFiles d d') :
    holdings ⟨.directory d', p⟩ = holdings ⟨.directory d, p⟩ := by
  unfold holdings
  simp only
  rw [h _ Directory.templateTable_sound.not_lockFile, h _ Directory.subscriptionTable_sound.not_lockFile,
    h _ Directory.masterTagTable_sound.not_lockFile, h _ Directory.childTagTable_sound.not_lockFile]

/-- In memory, an action refuses or revises the rows of a shelf. -/
def RevisesMemory {β : Type} (shelf : Shelf α) (f : List α → β × Option (List α))
    (x : Action Memory β) : Prop :=
  ∀ m, (∃ e, m.writesFail = true ∧ x.run m = (.error e, m)) ∨
    ∃ b ts, shelf.revise f (.of m.tables) = .ok (b, .of ts) ∧
      x.run m = (.ok b, { m with tables := ts }) ∧ (ts = m.tables ∨ m.writesFail = false)

/-- What revises the rows of a shelf in either place performs the revision. -/
theorem performed_onPlace {β : Type} {shelf : Shelf α} {Good : α → Prop} (hs : shelf.Sound Good)
    {f : List α → β × Option (List α)} {x : Action Memory β} (hx : RevisesMemory shelf f x)
    {s s' : Store} {r : Result β}
    (hf : s.directory.isSome = true → ∀ rows new, (∀ a ∈ rows, Good a) → (f rows).2 = some new →
      ∀ a ∈ new, Good a)
    (h : (onPlace x (Directory.revise shelf.table f)).run s = (r, s')) :
    Performed s (shelf.revise f) r s' := by
  obtain ⟨m | d, p⟩ := s
  · rw [run_onPlace_memory] at h
    obtain ⟨rfl, rfl⟩ := Prod.mk.inj h
    rcases hx m with ⟨e, hfail, hrun⟩ | ⟨b, ts, hrevise, hrun, hkept⟩
    · rw [hrun]
      refine ⟨rfl, fun _ => rfl, .inl ⟨e, rfl, rfl⟩, fun hworks => ?_, .inl rfl⟩
      have hnot : m.writesFail = false := hworks
      rw [hfail] at hnot
      cases hnot
    · rw [hrun]
      refine ⟨rfl, fun _ => rfl, .inr ⟨b, hrevise, rfl, rfl⟩, fun hworks => ⟨hworks, nofun⟩, ?_⟩
      rcases hkept with rfl | hwritable
      · exact .inl rfl
      · exact .inr ⟨⟨b, rfl⟩, hwritable⟩
  · rw [run_onPlace_directory] at h
    obtain ⟨rfl, rfl⟩ := Prod.mk.inj h
    have hgood : ∀ rows new, d.stored shelf.table = .ok rows → (f rows).2 = some new →
        ∀ a ∈ new, Good a :=
      fun rows new hrows hnew => hf rfl rows new (Directory.good_of_stored hs.table hrows) hnew
    -- where the directory works, only reading the rows can fail
    have hworks : Works ⟨.directory d, p⟩ →
        Works ⟨.directory ((Directory.revise shelf.table f).run d).2, p⟩ ∧
          ∀ e, ((Directory.revise shelf.table f).run d).1 = .error e →
            shelf.revise f (stored ⟨.directory d, p⟩) = .error e := by
      intro hd
      obtain ⟨hworks', hfail⟩ := Directory.works_of_revise hs.table.not_lockFile hd
        (Prod.eta ((Directory.revise shelf.table f).run d)).symm
      refine ⟨hworks', fun e he => ?_⟩
      rw [Shelf.revise, hs.rows_eq, hfail e he]
      rfl
    have hkept : holdings ⟨.directory ((Directory.revise shelf.table f).run d).2, p⟩ =
          holdings ⟨.directory d, p⟩ ∨
        (∃ a, ((Directory.revise shelf.table f).run d).1 = .ok a) ∧
          Works ⟨.directory ((Directory.revise shelf.table f).run d).2, p⟩ := by
      rcases Directory.files_of_revise hs.table.not_lockFile
        (Prod.eta ((Directory.revise shelf.table f).run d)).symm with hsame | ⟨hdone, _, _, -, -, hr, -⟩
      · exact .inl (holdings_of_sameFiles p hsame)
      · exact .inr ⟨⟨_, hr⟩, hdone⟩
    obtain ⟨hopen, ⟨e, he, hstored⟩ | ⟨rows, hrows, hr, hpresent, hafter⟩⟩ :=
      Directory.run_revise hs.table hgood (Prod.eta ((Directory.revise shelf.table f).run d)).symm
    · exact ⟨rfl, hopen, .inl ⟨e, he, stored_of_sameTables p hstored⟩, hworks, hkept⟩
    · refine ⟨rfl, hopen, .inr ⟨(f rows).1, ?_, hr, hpresent⟩, hworks, hkept⟩
      rw [Shelf.revise, hs.rows_eq, hrows]
      cases hnew : (f rows).2 with
      | none =>
        rw [hnew] at hafter
        rw [stored_of_sameTables p hafter]
        simp [hnew, Except.map]
      | some new =>
        rw [hnew] at hafter
        rw [hs.put_eq p hafter.1 hafter.2]
        simp [hnew, Except.map]

/-! ## The operations -/

theorem run_checkWritable (m : Memory) :
    Memory.checkWritable.run m =
      (if m.writesFail then .error .writeRefused else .ok (), m) := by
  rw [Memory.checkWritable, Action.run_bind_ok (Action.run_get m), Action.run_ite]
  split <;> rfl

theorem insertUnless_eq_revise {table : Table α} {test : α → Bool} {row : α} :
    Directory.insertUnless table test row =
      Directory.revise table (Tables.insertUnless test row) := by
  refine bind_congr fun _ => bind_congr fun rows => ?_
  cases hfind : rows.find? test with
  | none => simp only [Tables.insertUnless, hfind]
  | some found => simp only [Tables.insertUnless, hfind]

theorem good_insertUnless {Good : α → Prop} {test : α → Bool} {row : α} (hrow : Good row)
    {rows new : List α} (h : ∀ a ∈ rows, Good a)
    (hnew : (Tables.insertUnless test row rows).2 = some new) : ∀ a ∈ new, Good a := by
  unfold Tables.insertUnless at hnew
  split at hnew
  · cases hnew
  · rw [← Option.some.inj hnew]
    intro a ha
    rcases List.mem_append.1 ha with ha | ha
    · exact h a ha
    · rw [List.mem_singleton.1 ha]
      exact hrow

/-- In memory a row is added unless one of those that are held passes a test. -/
theorem revisesMemory_insertUnless {shelf : Shelf α} (held : Tables → List α)
    (add : Tables → Tables) {test : α → Bool} {row : α} {x : Action Memory α}
    (hrows : ∀ ts, shelf.rows (.of ts) = .ok (held ts))
    (hput : ∀ ts, shelf.put (held ts ++ [row]) (.of ts) = .of (add ts))
    (hx : x = do
      Memory.checkWritable
      match (held (← .get).tables).find? test with
      | some found => return found
      | none =>
        Memory.modifyTables add
        return row) :
    RevisesMemory shelf (Tables.insertUnless test row) x := by
  rintro ⟨ts, writesFail, lookups⟩
  subst hx
  cases writesFail with
  | true => exact .inl ⟨_, rfl, rfl⟩
  | false =>
    refine .inr ?_
    rw [Action.run_bind_ok (run_checkWritable _), Action.run_bind_ok (Action.run_get _),
      Shelf.revise, hrows]
    simp only [Tables.insertUnless, Except.map]
    cases (held ts).find? test with
    | none => exact ⟨row, add ts, congrArg (fun st => Except.ok (row, st)) (hput ts), rfl,
        .inr trivial⟩
    | some found => exact ⟨found, ts, rfl, rfl, .inl rfl⟩

/-- Adding a row in either place. -/
theorem insertUnless_performed {shelf : Shelf α} {Good : α → Prop} (hs : shelf.Sound Good)
    {test : α → Bool} {row : α} (hrow : Good row) {x : Action Memory α}
    (hx : RevisesMemory shelf (Tables.insertUnless test row) x) {s s' : Store} {r : Result α}
    (h : (onPlace x (Directory.insertUnless shelf.table test row)).run s = (r, s')) :
    Performed s (shelf.revise (Tables.insertUnless test row)) r s' := by
  rw [insertUnless_eq_revise] at h
  exact performed_onPlace hs hx (fun _ rows new => good_insertUnless hrow) h

/-- Adding a template unless its course has one. -/
theorem insertTemplate_performed {t : Template} (ht : t.IsDated) {s s' : Store}
    {r : Result Template} (h : (insertTemplate t).run s = (r, s')) :
    Performed s (templateShelf.revise
      (Tables.insertUnless (fun t' => t'.courseId = t.courseId) t)) r s' := by
  have hmemory : RevisesMemory templateShelf
      (Tables.insertUnless (fun t' => t'.courseId = t.courseId) t) (Memory.insertTemplate t) := by
    refine revisesMemory_insertUnless Tables.templates
      (fun ts => { ts with templates := ts.templates ++ [t] }) (fun _ => rfl) (fun _ => rfl) ?_
    simp only [Memory.insertTemplate, Memory.templates, bind_assoc, pure_bind]
    refine bind_congr fun _ => bind_congr fun m => ?_
    cases m.tables.templates.find? fun t' => t'.courseId = t.courseId with
    | none => rfl
    | some found => rfl
  exact insertUnless_performed templateShelf_sound ht hmemory h

/-- Adding a subscription unless there is one of the same pairing. -/
theorem insertSubscription_performed {t : Subscription} {s s' : Store} {r : Result Subscription}
    (h : (insertSubscription t).run s = (r, s')) :
    Performed s (subscriptionShelf.revise
      (Tables.insertUnless (fun t' => t'.samePairing t) t)) r s' := by
  have hmemory : RevisesMemory subscriptionShelf
      (Tables.insertUnless (fun t' => t'.samePairing t) t) (Memory.insertSubscription t) := by
    refine revisesMemory_insertUnless Tables.subscriptions
      (fun ts => { ts with subscriptions := ts.subscriptions ++ [t] }) (fun _ => rfl) (fun _ => rfl) ?_
    simp only [Memory.insertSubscription, Memory.subscriptions, bind_assoc, pure_bind]
    refine bind_congr fun _ => bind_congr fun m => ?_
    cases m.tables.subscriptions.find? fun t' => t'.samePairing t with
    | none => rfl
    | some found => rfl
  exact insertUnless_performed subscriptionShelf_sound trivial hmemory h

/-- Adding a child tag unless its content has one. -/
theorem insertChildTag_performed {t : ChildTag} (ht : t.IsDated) {s s' : Store}
    {r : Result ChildTag} (h : (insertChildTag t).run s = (r, s')) :
    Performed s (childTagShelf.revise
      (Tables.insertUnless (fun t' => t'.content = t.content) t)) r s' := by
  have hmemory : RevisesMemory childTagShelf
      (Tables.insertUnless (fun t' => t'.content = t.content) t) (Memory.insertChildTag t) := by
    refine revisesMemory_insertUnless Tables.childTags
      (fun ts => { ts with childTags := ts.childTags ++ [t] }) (fun _ => rfl) (fun _ => rfl) ?_
    simp only [Memory.insertChildTag, Memory.childTag?, Memory.childTags, bind_assoc, pure_bind]
    refine bind_congr fun _ => bind_congr fun m => ?_
    cases m.tables.childTags.find? fun t' => t'.content = t.content with
    | none => rfl
    | some found => rfl
  exact insertUnless_performed childTagShelf_sound ht hmemory h

/-- Adding a master tag or replacing the one with its migration identifier. -/
theorem saveMasterTag_performed {t : MasterTag} {s s' : Store} {r : Result Unit}
    (ht : s.directory.isSome = true → t.IsDated) (h : (saveMasterTag t).run s = (r, s')) :
    Performed s (masterTagShelf.revise fun rows =>
      ((), some (Tables.upsert (fun t' => t'.migrationId = t.migrationId) t rows))) r s' := by
  have hmemory : RevisesMemory masterTagShelf (fun rows =>
      ((), some (Tables.upsert (fun t' => t'.migrationId = t.migrationId) t rows)))
      (Memory.upsertMasterTag t) := by
    intro m
    obtain ⟨ts, writesFail, lookups⟩ := m
    cases writesFail with
    | true => exact .inl ⟨_, rfl, rfl⟩
    | false => exact .inr ⟨_, _, rfl, rfl, .inr rfl⟩
  refine performed_onPlace masterTagShelf_sound hmemory (fun hplace rows new hrows hnew => ?_) h
  rw [← Option.some.inj hnew]
  intro a ha
  rcases Tables.mem_upsert ha with rfl | ha
  · exact ht hplace
  · exact hrows a ha

theorem updateChildTag_eq_revise {β : Type} {content : ContentKey}
    {update : ChildTag → β × Option ChildTag} :
    Directory.updateChildTag content update =
      Directory.revise Directory.childTagTable (Tables.updateChildTag content update) := by
  refine bind_congr fun _ => bind_congr fun rows => ?_
  cases hfind : rows.find? fun t => t.content = content with
  | none => simp only [Tables.updateChildTag, hfind]
  | some tag =>
    simp only [Tables.updateChildTag, hfind]
    cases (update tag).2 with
    | none => rfl
    | some tag' => rfl

/-- Working on the child tag of a piece of content. -/
theorem updateChildTag_performed {β : Type} {content : ContentKey}
    {update : ChildTag → β × Option ChildTag}
    (hupdate : ∀ t t', t.IsDated → (update t).2 = some t' → t'.IsDated) {s s' : Store}
    {r : Result (Option β)}
    (h : (onPlace (Memory.updateChildTag content update)
      (Directory.updateChildTag content update)).run s = (r, s')) :
    Performed s (childTagShelf.revise (Tables.updateChildTag content update)) r s' := by
  have hmemory : RevisesMemory childTagShelf (Tables.updateChildTag content update)
      (Memory.updateChildTag content update) := by
    intro m
    obtain ⟨ts, writesFail, lookups⟩ := m
    rw [Memory.updateChildTag, Action.run_bind_ok (rfl : (Memory.childTag? _).run _ = _)]
    simp only [Shelf.revise, Tables.updateChildTag, childTagShelf, Stored.of, Except.map]
    cases ts.childTags.find? fun t => t.content = content with
    | none => exact .inr ⟨_, _, rfl, rfl, .inl rfl⟩
    | some tag =>
      simp only
      cases (update tag).2 with
      | none => exact .inr ⟨_, _, rfl, rfl, .inl rfl⟩
      | some tag' =>
        cases writesFail with
        | true => exact .inl ⟨_, rfl, rfl⟩
        | false => exact .inr ⟨_, _, rfl, rfl, .inr rfl⟩
  rw [updateChildTag_eq_revise] at h
  exact performed_onPlace childTagShelf_sound hmemory
    (fun _ rows new => Tables.good_updateChildTag hupdate) h

end Store

end CourseBlueprint
