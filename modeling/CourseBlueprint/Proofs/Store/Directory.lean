import CourseBlueprint.Proofs.Action
import CourseBlueprint.Proofs.Tag.Rows
import CourseBlueprint.Store.Directory

/-!
# What a data directory holds

`stored table d` are the rows in the file of a table. They are there before the directory is made,
though reading finds none until then. Taking the lock file leaves the rows of all tables as they
are, and a table of good rows that was written is found as it was written. A directory that works,
which means that it can be made and its lock file taken, can be written whenever it can be read.
-/

namespace CourseBlueprint

/-- A table whose rows read back, in a file of its own. -/
structure Table.Sound {α : Type} (table : Table α) (Good : α → Prop) : Prop where
  faithful : table.format.Faithful Good
  not_lockFile : table.file ≠ Directory.lockFile

namespace Directory

/-! ## Contents -/

/-- What is in the directory, or will be once it is made. -/
def entries : Directory → Dict Entry
  | missing made => made.getD ∅
  | refused => ∅
  | present entries => entries

/-- Whether there is a folder. -/
def isPresent : Directory → Bool
  | present _ => true
  | _ => false

variable {α β : Type}

/-- What reading a table answers. -/
def read (table : Table α) (d : Directory) : Result (List α) := ((rows table).run d).1

/-- The rows in the file of a table. -/
def stored (table : Table α) (d : Directory) : Result (List α) := read table (present d.entries)

/-! ## Reading -/

theorem run_rows (table : Table α) (d : Directory) : (rows table).run d = (d.read table, d) := by
  have hstate : ((rows table).run d).2 = d := by
    rw [rows, Action.run_bind_ok (Action.run_get d), Action.run_bind, Action.run_liftM]
    rcases d.text? table.file with _ | _ | text
    · rfl
    · rfl
    · rfl
  exact Prod.ext rfl hstate

theorem read_eq_stored {d : Directory} (h : d.isPresent = true) (table : Table α) :
    d.read table = d.stored table := by
  cases d with
  | present entries => rfl
  | _ => cases h

theorem read_of_not_present {d : Directory} (h : d.isPresent = false) (table : Table α) :
    d.read table = .ok [] := by
  cases d with
  | present entries => cases h
  | _ => rfl

/-- The rows of a table are those of its file. -/
theorem stored_eq (table : Table α) (d : Directory) :
    d.stored table = match d.entries.get? table.file with
      | none => .ok []
      | some (.file text) => .ofOption .undecodable (table.format.decode? text)
      | some .folder => .error .unreadable := by
  rw [stored, read, rows, Action.run_bind_ok (Action.run_get _), Action.run_bind, Action.run_liftM,
    text?]
  rcases d.entries.get? table.file with _ | text | _
  · rfl
  · rfl
  · rfl

theorem stored_of_text {table : Table α} {d : Directory} {text : String}
    (h : d.entries.get? table.file = some (.file text)) :
    d.stored table = .ofOption .undecodable (table.format.decode? text) := by
  rw [stored_eq, h]

theorem stored_congr {table : Table α} {d d' : Directory}
    (h : d'.entries.get? table.file = d.entries.get? table.file) :
    d'.stored table = d.stored table := by
  rw [stored_eq, stored_eq, h]

/-- The rows that are found in a table are good. -/
theorem good_of_stored {table : Table α} {Good : α → Prop} (ht : table.Sound Good) {d : Directory}
    {rows : List α} (h : d.stored table = .ok rows) : ∀ a ∈ rows, Good a := by
  rw [stored_eq] at h
  split at h
  · rw [← Except.ok.inj h]
    exact fun a ha => absurd ha List.not_mem_nil
  · next text _ =>
    cases hdecode : table.format.decode? text with
    | none => rw [hdecode] at h; cases h
    | some rows' =>
      rw [hdecode] at h
      rw [← Except.ok.inj h]
      exact ht.faithful.good_of_decode? hdecode
  · cases h

/-! ## Writing -/

theorem isPresent_put (d : Directory) (name text : String) :
    (d.put name text).isPresent = d.isPresent := by
  cases d with
  | present entries => rfl
  | _ => rfl

/-- Making the directory brings nothing into it. -/
theorem entries_make {d d' : Directory} {r : Result Unit} (h : make.run d = (r, d')) :
    d'.entries = d.entries ∧ (d.isPresent = true ∨ r = .ok () → d'.isPresent = true) := by
  rcases d with (_ | entries) | _ | entries
  · obtain ⟨rfl, rfl⟩ := Prod.mk.inj h
    exact ⟨rfl, fun h => nomatch h⟩
  · obtain ⟨rfl, rfl⟩ := Prod.mk.inj h
    exact ⟨rfl, fun _ => rfl⟩
  · obtain ⟨rfl, rfl⟩ := Prod.mk.inj h
    exact ⟨rfl, fun h => nomatch h⟩
  · obtain ⟨rfl, rfl⟩ := Prod.mk.inj h
    exact ⟨rfl, fun _ => rfl⟩

theorem entries_put_of_ne {d : Directory} {name other : String} (h : other ≠ name) (text : String) :
    (d.put name text).entries.get? other = d.entries.get? other := by
  cases d with
  | present entries => exact Dict.get?_put_of_ne h
  | _ => rfl

theorem stored_put_of_ne {table : Table α} {d : Directory} {name text : String}
    (h : table.file ≠ name) : (d.put name text).stored table = d.stored table :=
  stored_congr (entries_put_of_ne h text)

/-- Directories that differ in the lock file at most. -/
def SameFiles (d d' : Directory) : Prop :=
  ∀ name, name ≠ lockFile → d'.entries.get? name = d.entries.get? name

/-- Directories whose tables hold the same. -/
def SameTables (d d' : Directory) : Prop :=
  ∀ (α : Type) (table : Table α), table.file ≠ lockFile → d'.stored table = d.stored table

theorem SameFiles.sameTables {d d' : Directory} (h : SameFiles d d') : SameTables d d' :=
  fun _ table hne => stored_congr (h table.file hne)

/-- Taking the lock file leaves all other files as they are. -/
theorem sameFiles_takeLock {d d' : Directory} {r : Result Unit} (h : takeLock.run d = (r, d')) :
    SameFiles d d' ∧ (d.isPresent = true ∨ r = .ok () → d'.isPresent = true) := by
  rw [takeLock, Action.run_bind] at h
  rcases hmake : make.run d with ⟨_ | _, d₁⟩
  · obtain ⟨hentries, hpresent⟩ := entries_make hmake
    rw [hmake] at h
    obtain ⟨rfl, rfl⟩ := Prod.mk.inj h
    exact ⟨fun _ _ => by rw [hentries], fun h => hpresent (h.imp id fun h => nomatch h)⟩
  · obtain ⟨hentries, hpresent⟩ := entries_make hmake
    have hpresent : d₁.isPresent = true := hpresent (.inr rfl)
    have hsame : SameFiles d d₁ := fun _ _ => by rw [hentries]
    rw [hmake] at h
    simp only [Action.run_bind_ok (Action.run_get d₁)] at h
    rw [Action.run_bind, Action.run_liftM] at h
    rcases htext : d₁.text? lockFile with _ | _ | text
    · rw [htext] at h
      obtain ⟨rfl, rfl⟩ := Prod.mk.inj h
      exact ⟨hsame, fun _ => hpresent⟩
    · rw [htext] at h
      obtain ⟨rfl, rfl⟩ := Prod.mk.inj h
      refine ⟨fun name hne => ?_, fun _ => ?_⟩
      · rw [entries_put_of_ne hne, hsame name hne]
      · rw [isPresent_put, hpresent]
    · rw [htext] at h
      obtain ⟨rfl, rfl⟩ := Prod.mk.inj h
      exact ⟨hsame, fun _ => hpresent⟩

/-- Taking the lock file leaves the tables as they are. -/
theorem sameTables_takeLock {d d' : Directory} {r : Result Unit} (h : takeLock.run d = (r, d')) :
    SameTables d d' ∧ (d.isPresent = true ∨ r = .ok () → d'.isPresent = true) :=
  (sameFiles_takeLock h).imp_left SameFiles.sameTables

/-- A table that was written holds what was written, and the other tables what they held. -/
theorem stored_write {table : Table α} {Good : α → Prop} (ht : table.Sound Good) {rows : List α}
    (hrows : ∀ a ∈ rows, Good a) {d : Directory} (hd : d.isPresent = true) :
    ∃ d', (write table rows).run d = (.ok (), d') ∧ d'.isPresent = true ∧
      d'.stored table = .ok rows ∧
      ∀ (β : Type) (other : Table β), other.file ≠ table.file →
        d'.stored other = d.stored other := by
  refine ⟨d.put table.file (table.format.encode rows), rfl, ?_, ?_, fun _ _ => stored_put_of_ne⟩
  · rw [isPresent_put, hd]
  · cases d with
    | present entries =>
      have htext : (present (entries.put table.file (.file (table.format.encode rows)))).entries.get?
          table.file = some (.file (table.format.encode rows)) := Dict.get?_put_self
      rw [put, stored_of_text htext, ht.faithful.decode?_encode hrows]
      rfl
    | _ => cases hd

/-- Works on the rows of a table while the lock file is held, and writes them if they change. -/
def revise (table : Table α) (f : List α → β × Option (List α)) : Action Directory β := do
  takeLock
  let old ← rows table
  match (f old).2 with
  | none => return (f old).1
  | some new =>
    write table new
    return (f old).1

/-- A table that is revised holds what it is revised to; if that fails, no table has changed. -/
theorem run_revise {table : Table α} {Good : α → Prop} (ht : table.Sound Good)
    {f : List α → β × Option (List α)} {d d' : Directory} {r : Result β}
    (hf : ∀ rows new, d.stored table = .ok rows → (f rows).2 = some new → ∀ a ∈ new, Good a)
    (h : (revise table f).run d = (r, d')) :
    (d.isPresent = true → d'.isPresent = true) ∧
      ((∃ e, r = .error e ∧ SameTables d d') ∨
        ∃ rows, d.stored table = .ok rows ∧ r = .ok (f rows).1 ∧ d'.isPresent = true ∧
          match (f rows).2 with
          | none => SameTables d d'
          | some new => d'.stored table = .ok new ∧
            ∀ (γ : Type) (other : Table γ), other.file ≠ lockFile → other.file ≠ table.file →
              d'.stored other = d.stored other) := by
  rw [revise, Action.run_bind] at h
  rcases hlock : takeLock.run d with ⟨e | _, d₁⟩
  · obtain ⟨hstored, hpresent⟩ := sameTables_takeLock hlock
    rw [hlock] at h
    obtain ⟨rfl, rfl⟩ := Prod.mk.inj h
    exact ⟨fun h => hpresent (.inl h), .inl ⟨e, rfl, hstored⟩⟩
  · obtain ⟨hstored, hpresent⟩ := sameTables_takeLock hlock
    have hpresent : d₁.isPresent = true := hpresent (.inr rfl)
    rw [hlock] at h
    simp only at h
    rw [Action.run_bind, run_rows, read_eq_stored hpresent] at h
    rcases hrows : d₁.stored table with e | rows
    · rw [hrows] at h
      obtain ⟨rfl, rfl⟩ := Prod.mk.inj h
      exact ⟨fun _ => hpresent, .inl ⟨e, rfl, hstored⟩⟩
    · rw [hrows] at h
      simp only at h
      rw [hstored α table ht.not_lockFile] at hrows
      cases hnew : (f rows).2 with
      | none =>
        simp only [hnew] at h
        obtain ⟨rfl, rfl⟩ := Prod.mk.inj h
        refine ⟨fun _ => hpresent, .inr ⟨rows, hrows, rfl, hpresent, ?_⟩⟩
        rw [hnew]
        exact hstored
      | some new =>
        simp only [hnew] at h
        obtain ⟨d₂, hwrite, hpresent₂, htable₂, hother₂⟩ :=
          stored_write ht (hf rows new hrows hnew) hpresent
        rw [Action.run_bind_ok hwrite] at h
        obtain ⟨rfl, rfl⟩ := Prod.mk.inj h
        refine ⟨fun _ => hpresent₂, .inr ⟨rows, hrows, rfl, hpresent₂, ?_⟩⟩
        rw [hnew]
        exact ⟨htable₂, fun γ other hl hne => (hother₂ γ other hne).trans (hstored γ other hl)⟩

/-! ## Directories that work -/

/-- A directory that can be written: it is there or can be made, and the lock file can be held. -/
structure Works (d : Directory) : Prop where
  made : d.isPresent = true ∨ ∃ entries, d = missing (some entries)
  lockable : d.entries.get? lockFile ≠ some .folder

/-- Writing a file leaves a directory that works. -/
theorem works_put {d : Directory} (hd : d.isPresent = true) (h : d.Works) (name text : String) :
    (d.put name text).Works := by
  refine ⟨.inl (by rw [isPresent_put, hd]), ?_⟩
  cases d with
  | present entries =>
    show (entries.put name (.file text)).get? lockFile ≠ some .folder
    by_cases hname : lockFile = name
    · rw [hname, Dict.get?_put_self]
      exact nofun
    · rw [Dict.get?_put_of_ne hname]
      exact h.lockable
  | _ => cases hd

/-- In a directory that is there the lock file is taken, and made if it was not there, unless something
else has its name. -/
theorem run_takeLock_of_made {d : Directory} {entries : Dict Entry}
    (hmake : make.run d = (.ok (), present entries)) :
    takeLock.run d = match entries.get? lockFile with
      | none => (.ok (), (present entries).put lockFile "")
      | some (.file _) => (.ok (), present entries)
      | some .folder => (.error .unreadable, present entries) := by
  rw [takeLock, Action.run_bind_ok hmake]
  simp only [Action.run_bind_ok (Action.run_get (present entries))]
  rw [Action.run_bind, Action.run_liftM, text?]
  rcases entries.get? lockFile with _ | text | _
  · rfl
  · rfl
  · rfl

/-- The lock file of a directory that works can be taken. -/
theorem run_takeLock_of_works {d : Directory} (h : d.Works) :
    ∃ d', takeLock.run d = (.ok (), d') ∧ d'.Works := by
  obtain ⟨entries, hmake, hworks⟩ : ∃ entries, make.run d = (.ok (), present entries) ∧
      (present entries).Works := by
    rcases h.made with hpresent | ⟨entries, rfl⟩
    · cases d with
      | present entries => exact ⟨_, rfl, h⟩
      | _ => cases hpresent
    · exact ⟨_, rfl, .inl rfl, h.lockable⟩
  rw [run_takeLock_of_made hmake]
  rcases hentry : entries.get? lockFile with _ | text | _
  · exact ⟨_, rfl, works_put rfl hworks _ _⟩
  · exact ⟨_, rfl, hworks⟩
  · exact absurd hentry hworks.lockable

/-- A directory whose lock file was taken works. -/
theorem works_of_takeLock {d d' : Directory} (h : takeLock.run d = (.ok (), d')) : d'.Works := by
  obtain ⟨_, d₁, hmake, -⟩ := Action.run_bind_eq_ok.1 h
  have hpresent : d₁.isPresent = true := (entries_make hmake).2 (.inr rfl)
  cases d₁ with
  | present entries =>
    rw [run_takeLock_of_made hmake] at h
    rcases hentry : entries.get? lockFile with _ | text | _
    · rw [hentry] at h
      obtain ⟨-, rfl⟩ := Prod.mk.inj h
      refine ⟨.inl rfl, ?_⟩
      show (entries.put lockFile (.file "")).get? lockFile ≠ some .folder
      rw [Dict.get?_put_self]
      exact nofun
    · rw [hentry] at h
      obtain ⟨-, rfl⟩ := Prod.mk.inj h
      refine ⟨.inl rfl, ?_⟩
      show entries.get? lockFile ≠ some .folder
      rw [hentry]
      exact nofun
    · rw [hentry] at h
      cases (Prod.mk.inj h).1
  | _ => cases hpresent

/-- Revising a table leaves all files but the lock file, or it has written the table alone, in a
directory that works. -/
theorem files_of_revise {table : Table α} (hfile : table.file ≠ lockFile)
    {f : List α → β × Option (List α)} {d d' : Directory} {r : Result β}
    (h : (revise table f).run d = (r, d')) :
    SameFiles d d' ∨ d'.Works ∧ ∃ rows new, d.stored table = .ok rows ∧
      (f rows).2 = some new ∧ r = .ok (f rows).1 ∧
      d'.entries.get? table.file = some (.file (table.format.encode new)) ∧
      ∀ name, name ≠ lockFile → name ≠ table.file → d'.entries.get? name = d.entries.get? name := by
  rw [revise] at h
  rcases Action.run_bind_ends h with ⟨e, hlock, -⟩ | ⟨_, d₁, hlock, h⟩
  · exact .inl (sameFiles_takeLock hlock).1
  obtain ⟨hsame, hpresent⟩ := sameFiles_takeLock hlock
  have hpresent : d₁.isPresent = true := hpresent (.inr rfl)
  rw [Action.run_bind, run_rows, read_eq_stored hpresent, hsame.sameTables α table hfile] at h
  cases hrows : d.stored table with
  | error e =>
    rw [hrows] at h
    obtain ⟨-, rfl⟩ := Prod.mk.inj h
    exact .inl hsame
  | ok rows =>
    rw [hrows] at h
    simp only at h
    cases hnew : (f rows).2 with
    | none =>
      rw [hnew] at h
      obtain ⟨-, rfl⟩ := Prod.mk.inj h
      exact .inl hsame
    | some new =>
      rw [hnew] at h
      obtain ⟨rfl, rfl⟩ := Prod.mk.inj h
      refine .inr ⟨works_put hpresent (works_of_takeLock hlock) _ _, rows, new, rfl, hnew, rfl, ?_,
        fun name hl hne => ?_⟩
      · cases d₁ with
        | present entries => exact Dict.get?_put_self
        | _ => cases hpresent
      · exact (entries_put_of_ne hne _).trans (hsame name hl)

/-- Revising a table of a directory that works fails only if the table cannot be read. -/
theorem works_of_revise {table : Table α} (hfile : table.file ≠ lockFile)
    {f : List α → β × Option (List α)} {d d' : Directory} {r : Result β} (hworks : d.Works)
    (h : (revise table f).run d = (r, d')) :
    d'.Works ∧ ∀ e, r = .error e → d.stored table = .error e := by
  obtain ⟨d₁, hlock, hworks₁⟩ := run_takeLock_of_works hworks
  obtain ⟨hsame, hpresent⟩ := sameTables_takeLock hlock
  have hpresent : d₁.isPresent = true := hpresent (.inr rfl)
  rw [revise, Action.run_bind_ok hlock, Action.run_bind, run_rows, read_eq_stored hpresent,
    hsame α table hfile] at h
  cases hrows : d.stored table with
  | error e =>
    rw [hrows] at h
    obtain ⟨rfl, rfl⟩ := Prod.mk.inj h
    exact ⟨hworks₁, fun e' he => congrArg Except.error (Except.error.inj he)⟩
  | ok rows =>
    rw [hrows] at h
    simp only at h
    cases hnew : (f rows).2 with
    | none =>
      rw [hnew] at h
      obtain ⟨rfl, rfl⟩ := Prod.mk.inj h
      exact ⟨hworks₁, nofun⟩
    | some new =>
      rw [hnew] at h
      obtain ⟨rfl, rfl⟩ := Prod.mk.inj h
      exact ⟨works_put hpresent hworks₁ _ _, nofun⟩

/-! ## The four tables -/

theorem templateTable_sound : templateTable.Sound Template.IsDated :=
  ⟨Template.format_faithful, by decide⟩

theorem subscriptionTable_sound : subscriptionTable.Sound fun _ => True :=
  ⟨Subscription.format_faithful, by decide⟩

theorem masterTagTable_sound : masterTagTable.Sound MasterTag.IsDated :=
  ⟨MasterTag.format_faithful, by decide⟩

theorem childTagTable_sound : childTagTable.Sound ChildTag.IsDated :=
  ⟨ChildTag.format_faithful, by decide⟩

end Directory

end CourseBlueprint
