import CourseBlueprint.Proofs.Command.Moves
import CourseBlueprint.Proofs.Store.Soundness

/-!
# Tables after requests

Whatever is requested of a store that was empty, its tables are sound (`runEvents_sound`), also where
requests fail and where writes are refused in between. All its child tags are those of copies
(`orderly_runEvents`).
-/

namespace CourseBlueprint

namespace Store

/-- The store that takes writes or refuses them from now on, if it is in memory. -/
def refusingWrites (s : Store) (on : Bool) : Store :=
  match s.place with
  | .memory m => { s with place := .memory { m with writesFail := on } }
  | .directory _ => s

theorem alike_refusingWrites (s : Store) (on : Bool) : s.Alike (s.refusingWrites on) := by
  obtain ⟨m | d, p⟩ := s
  · exact ⟨rfl, rfl, rfl⟩
  · exact .refl _

/-- A store that holds nothing shows all of it. -/
theorem ready_of_empty {s : Store} (hclock : s.supply.ShowsDates) (hempty : s.stored = .of .empty) :
    s.Ready := by
  refine ⟨hclock, ?_⟩
  unfold seen
  split
  · rfl
  · exact hempty.symm

theorem traced_of_empty {b : Rulebook} {asked : ContentKey → Prop} {s : Store}
    (hempty : s.stored = .of .empty) : s.Traced b asked :=
  ⟨.empty, hempty, Tables.traced_empty b asked s.supply.HasDrawn⟩

end Store

/-! ## Stores in order -/

/-- Whether all child tags carry the marker in their migration identifiers. -/
def Stored.Marked (b : Rulebook) (st : Stored) : Prop :=
  ∀ rows, st.childTags = .ok rows → ∀ tag ∈ rows,
    ∃ id, tag.migrationId = some id ∧ b.settings.marks id = true

/-- Copies are made under migration identifiers with the marker, and keep them. -/
theorem Stored.Change.marked {b : Rulebook} {asked : ContentKey → Prop} {new : Uuid → Prop}
    {st st' : Stored} (h : st.Change b asked new st') (hst : st.Marked b) : st'.Marked b := by
  cases h with
  | template => exact hst
  | subscription => exact hst
  | masterTag => exact hst
  | locks => exact hst
  | @copy rows t sub master masterTag made hsub ht hfollows hasked hmaster hmasterId hid hkind
      hsubscription hchanges hrows =>
    rintro rows' hrows' tag htag
    obtain rfl := Except.ok.inj hrows'
    rcases List.mem_append.1 htag with hold | hmade
    · exact hst rows hrows tag hold
    · rw [List.mem_singleton.1 hmade]
      exact ⟨_, hid, b.settings.marks_migrationId t master⟩
  | @changes old changes _ hgoverned hset =>
    obtain ⟨rows, time, hrows, hheld, rfl⟩ := hset
    rintro rows' hrows' tag htag
    obtain rfl := Except.ok.inj hrows'
    rcases Tables.mem_replaceFirst htag with rfl | hold
    · exact hst rows hrows old (List.mem_of_find?_eq_some hheld)
    · exact hst rows hrows tag hold

namespace Store

variable {b : Rulebook} {asked : ContentKey → Prop} {s s' : Store}

theorem Moves.marked (h : s.Moves b asked s') (hs : s.stored.Marked b) : s'.stored.Marked b := by
  induction h with
  | refl => exact hs
  | tail hmoves hmove ih =>
    rcases hmove.rows with hsame | ⟨-, hchange⟩
    · rw [Stored.Marked, hsame]
      exact ih
    · exact hchange.marked ih

/-- A store whose look-ups by key have one answer and whose tags are those of copies. -/
structure Orderly (b : Rulebook) (s : Store) : Prop where
  ready : s.Ready
  keyed : s.Keyed b
  marked : s.stored.Marked b

theorem Moves.orderly (h : s.Moves b asked s') (hs : s.Orderly b) : s'.Orderly b :=
  ⟨h.ready hs.ready, h.keyed hs.keyed, h.marked hs.marked⟩

theorem orderly_of_empty (hclock : s.supply.ShowsDates) (hempty : s.stored = .of .empty) :
    s.Orderly b where
  ready := ready_of_empty hclock hempty
  keyed := ⟨.empty, hempty, Tables.keyed_empty b⟩
  marked := by
    intro rows hrows tag htag
    rw [hempty] at hrows
    obtain rfl := Except.ok.inj hrows
    exact absurd htag List.not_mem_nil

theorem Orderly.marks (h : s.Orderly b) {content : ContentKey} {tag : ChildTag}
    (htag : s.stored.childTag? content = .ok (some tag)) :
    ∃ id, tag.migrationId = some id ∧ b.settings.marks id = true := by
  obtain ⟨rows, hrows, hfind⟩ := childTag?_eq_some htag
  exact h.marked rows hrows tag (List.mem_of_find?_eq_some hfind)

end Store

/-! ## Events -/

/-- What happens to a store: a request, or a change in whether writes in memory are refused. -/
inductive Event where
  | request (r : Request)
  | refuseWrites (on : Bool)
deriving DecidableEq

namespace Event

/-- The store after an event. -/
def after (b : Rulebook) (s : Store) : Event → Store
  | request r => ((r.run b).run s).2
  | refuseWrites on => s.refusingWrites on

/-- The blueprint content that an event may tag. -/
def masters : Event → List ContentKey
  | request r => r.masters
  | refuseWrites _ => []

theorem moves_after {b : Rulebook} {asked : ContentKey → Prop} {s : Store} (hready : s.Ready)
    (e : Event) (hasked : ∀ k ∈ e.masters, asked k) : s.Moves b asked (e.after b s) := by
  cases e with
  | request r => exact Action.keeps_iff.1 (Request.moves_run hready r hasked) s .refl
  | refuseWrites on => exact (s.alike_refusingWrites on).move.moves

end Event

variable {b : Rulebook} {asked : ContentKey → Prop} {s : Store}

/-- The store after several events, one after the other. -/
def runEvents (b : Rulebook) (events : List Event) (s : Store) : Store :=
  events.foldl (Event.after b) s

theorem runEvents_concat (b : Rulebook) (events : List Event) (e : Event) (s : Store) :
    runEvents b (events ++ [e]) s = e.after b (runEvents b events s) := by
  rw [runEvents, List.foldl_append]
  rfl

theorem moves_runEvents (hready : s.Ready) (events : List Event)
    (hasked : ∀ e ∈ events, ∀ k ∈ e.masters, asked k) : s.Moves b asked (runEvents b events s) := by
  unfold runEvents
  induction events generalizing s with
  | nil => exact .refl
  | cons e events ih =>
    have hfirst : s.Moves b asked (e.after b s) :=
      e.moves_after hready (hasked e List.mem_cons_self)
    refine hfirst.trans (ih (hfirst.ready hready) ?_)
    intro e' he'
    exact hasked e' (List.mem_cons_of_mem e he')

theorem orderly_runEvents (hs : s.Orderly b) (events : List Event) :
    (runEvents b events s).Orderly b := by
  have hmoves : s.Moves b (fun _ => True) (runEvents b events s) :=
    moves_runEvents hs.ready events fun _ _ _ _ => trivial
  exact hmoves.orderly hs

/-- After any events on a store that was empty, in memory or in a directory, its tables are sound and
all shown, if the identifiers drawn are different and so are the digests of the content that was asked
for. -/
theorem runEvents_sound (b : Rulebook) (events : List Event) (hclock : s.supply.ShowsDates)
    (hempty : s.stored = .of .empty) (hfresh : (runEvents b events s).supply.Fresh)
    (hdistinct : (runEvents b events s).Distinguishes fun k => ∃ e ∈ events, k ∈ e.masters) :
    ∃ ts, (runEvents b events s).stored = .of ts ∧ (runEvents b events s).seen = .of ts ∧
      ts.Sound b := by
  have hready : s.Ready := Store.ready_of_empty hclock hempty
  have hmoves : s.Moves b (fun k => ∃ e ∈ events, k ∈ e.masters) (runEvents b events s) :=
    moves_runEvents hready events fun e he k hk => ⟨e, he, hk⟩
  obtain ⟨ts, hstored, htraced⟩ :=
    hmoves.traced hfresh hdistinct (Store.traced_of_empty hempty)
  refine ⟨ts, hstored, ?_, htraced.toSound⟩
  rw [(hmoves.ready hready).shown, hstored]

namespace Sample

/-- The first identifiers of the supply differ. -/
theorem fresh_of_later {p : Supply} (h : supply.Later p) (hused : p.idsUsed ≤ 16) : p.Fresh := by
  have hdifferent : ∀ i < 16, ∀ j < 16, supply.ids i = supply.ids j → i = j := by decide
  intro i j hi hj heq
  rw [h.ids] at heq
  exact hdifferent i (Nat.lt_of_lt_of_le hi hused) j (Nat.lt_of_lt_of_le hj hused) heq

/-- A page is synced to a course that follows a blueprint, and edited there; the first sync is refused
to write. -/
def syncAndEdit : List Event :=
  [.request (.makeBlueprint ⟨10⟩), .request (.subscribe ⟨10⟩ ⟨4⟩), .refuseWrites true,
    .request (.sync (supply.ids 1) page []), .refuseWrites false,
    .request (.sync (supply.ids 1) page []),
    .request (.edit ⟨.wikiPage, supply.ids 4⟩ ["body=new"] false false)]

theorem masters_syncAndEdit : ∀ e ∈ syncAndEdit, ∀ k ∈ e.masters, k = page := by decide

theorem idsUsed_syncAndEdit :
    (runEvents rulebook syncAndEdit (.inMemory supply)).supply.idsUsed = 6 := by decide +kernel

theorem fresh_syncAndEdit :
    (runEvents rulebook syncAndEdit (.inMemory supply)).supply.Fresh := by
  have hready : (Store.inMemory supply).Ready := Store.ready_of_empty showsDates_supply rfl
  have hmoves : (Store.inMemory supply).Moves rulebook (fun k => k = page)
      (runEvents rulebook syncAndEdit (.inMemory supply)) :=
    moves_runEvents hready syncAndEdit masters_syncAndEdit
  exact fresh_of_later hmoves.supply (by rw [idsUsed_syncAndEdit]; decide)

/-- The edit of the body is recorded for the copy, and the tables are sound. -/
theorem sound_syncAndEdit :
    (∃ ts, (runEvents rulebook syncAndEdit (.inMemory supply)).stored = .of ts ∧
      (runEvents rulebook syncAndEdit (.inMemory supply)).seen = .of ts ∧ ts.Sound rulebook) ∧
    (runEvents rulebook syncAndEdit (.inMemory supply)).stored.childTags.toOption.map
      (List.map fun c => c.changes.toList) = some [["body"]] := by
  refine ⟨runEvents_sound rulebook syncAndEdit showsDates_supply rfl fresh_syncAndEdit ?_,
    by decide +kernel⟩
  rintro t - k k' ⟨e, he, hk⟩ ⟨e', he', hk'⟩ -
  rw [masters_syncAndEdit e he k hk, masters_syncAndEdit e' he' k' hk']

end Sample

end CourseBlueprint
