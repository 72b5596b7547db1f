import CourseBlueprint.Proofs.Action
import CourseBlueprint.Proofs.Layers
import CourseBlueprint.Summary

/-!
# Building a registry

Each step of building a registry has lists of columns for the categories that it names (`Step.listsFor`).
A registry that was built has for every category the columns of all lists, in the order of the steps and
each column where it comes first; a category without a list is not registered (`Registry.build_lists`).

A step may consist of several, done one after the other on the registry at hand (`Step.perform`). Such a
step could fail halfway, with the columns added that come before. `Step.run_perform` says that none does:
a step that fails has changed nothing.
-/

namespace CourseBlueprint

namespace Schema

/-- Columns that are added after others are added behind them. -/
theorem addColumns_addColumns (old new newer : List String) :
    addColumns (addColumns old new) newer = addColumns old (new ++ newer) :=
  List.foldl_append.symm

theorem addColumns_nil (new : List String) : addColumns [] new = new.eraseDups := by
  rw [addColumns_eq, List.nil_append, List.filter_eq_self.2 (by simp)]

/-- Columns that are added list by list are those of all lists. -/
theorem getD_foldl_layer (lists : List (List String)) (old : Option (List String)) :
    (lists.foldl layer old).getD [] = addColumns (old.getD []) lists.flatten := by
  induction lists generalizing old with
  | nil => rfl
  | cons new lists ih =>
    rw [List.foldl_cons, ih, List.flatten_cons, ← addColumns_addColumns]
    rfl

/-- A category is registered once a list is added to it, also one without columns. -/
theorem isSome_foldl_layer (lists : List (List String)) (old : Option (List String)) :
    (lists.foldl layer old).isSome = true ↔ old.isSome = true ∨ lists ≠ [] := by
  induction lists generalizing old with
  | nil => simp
  | cons new lists ih =>
    rw [List.foldl_cons, ih]
    simp [layer]

end Schema

namespace Registry

variable {k : Kind} {g : Category}

/-! ## Several categories of a kind -/

theorem restrictAll_cons (r : Registry) (k : Kind) (e : Category × List String)
    (es : List (Category × List String)) :
    r.restrictAll k (e :: es) = (r.restrict k e.1 e.2).restrictAll k es := by
  funext k'
  by_cases hk : k' = k
  · simp [restrictAll, restrict, hk, Schema.restrictAll]
  · simp [restrictAll, restrict, hk]

theorem restrictAll_nil (r : Registry) (k : Kind) : r.restrictAll k [] = r := by
  funext k'
  rw [restrictAll]
  split
  · next hk =>
    rw [hk]
    rfl
  · rfl

/-- The lists that some entries have for a category. -/
def listsIn (g : Category) (es : List (Category × List String)) : List (List String) :=
  (es.filter fun e => e.1 = g).map Prod.snd

theorem get_restrictAll (r : Registry) (k k' : Kind) (g : Category)
    (es : List (Category × List String)) : ((r.restrictAll k es) k').get g =
      (if k' = k then listsIn g es else []).foldl Schema.layer ((r k').get g) := by
  induction es generalizing r with
  | nil => simp [restrictAll_nil, listsIn]
  | cons e es ih =>
    rw [restrictAll_cons, ih, get_restrict]
    by_cases hk : k' = k
    · subst hk
      by_cases hg : g = e.1
      · simp [listsIn, hg]
      · simp [listsIn, hg, Ne.symm hg]
    · simp [hk]

/-! ## What a step adds -/

namespace Step

/-- The lists of columns that a step has for a category of a kind; none if it does not name the
category. -/
def listsFor (k : Kind) (g : Category) : Step → List (List String)
  | .restrict k' l new => if k = k' ∧ l = .only g then [new] else []
  | .restrictNamed k' name new => if k = k' ∧ name = g.name then [new] else []
  | .assignmentColumns k' => if k = k' then listsIn g Registry.assignmentColumns else []

/-- The kind that a step is about. -/
def kind : Step → Kind
  | .restrict k _ _ => k
  | .restrictNamed k _ _ => k
  | .assignmentColumns k => k

/-- The entries that are added under a lock. -/
def entriesUnder (l : Lock) (new : List String) : Result (List (Category × List String)) :=
  match l with
  | .only g => .ok [(g, new)]
  | .everything => .error .columnsForEverything

/-- The entries that a step adds, or why it fails. -/
def entries : Step → Result (List (Category × List String))
  | .restrict _ l new => entriesUnder l new
  | .restrictNamed _ name new => (Lock.ofName name).bind fun l => entriesUnder l new
  | .assignmentColumns _ => .ok Registry.assignmentColumns

/-- The lists of a step are those of its entries. -/
theorem listsFor_eq (s : Step) (k : Kind) (g : Category) : s.listsFor k g = match s.entries with
    | .ok es => if k = s.kind then listsIn g es else []
    | .error _ => [] := by
  cases s with
  | restrict k' l new =>
    cases l with
    | only c => by_cases hc : c = g <;> simp [listsFor, entries, entriesUnder, kind, listsIn, hc]
    | everything => simp [listsFor, entries, entriesUnder]
  | restrictNamed k' name new =>
    rw [listsFor, entries, Lock.ofName]
    cases hname : Lock.ofName? name with
    | none =>
      have hne : name ≠ g.name := by
        rintro rfl
        cases hname.symm.trans (Lock.only g).ofName?_name
      simp [hne, Result.ofOption, Except.bind]
    | some l =>
      obtain rfl := Lock.ofName?_eq_some.1 hname
      cases l with
      | only c =>
        have hsame : (Lock.only c).name = g.name ↔ c = g :=
          ⟨Category.name_inj, fun h => congrArg Category.name h⟩
        by_cases hc : c = g
        · subst hc
          simp [hsame, Result.ofOption, Except.bind, entriesUnder, kind, listsIn]
        · simp [hsame, hc, Result.ofOption, Except.bind, entriesUnder, kind, listsIn]
      | everything =>
        have hne : Lock.everything.name ≠ g.name := by cases g <;> decide
        simp [hne, Result.ofOption, Except.bind, entriesUnder]
  | assignmentColumns k' => rfl

/-- Whether a step names no category: it is for everything, or under a name that is none. -/
def NamesNone : Step → Prop
  | .restrict _ l _ => l = .everything
  | .restrictNamed _ name _ => ∀ g : Category, g.name ≠ name
  | .assignmentColumns _ => False

theorem namesNone_iff (s : Step) : s.NamesNone ↔ ∃ e, s.entries = .error e := by
  have hunder : ∀ (l : Lock) (new : List String),
      (∃ e, entriesUnder l new = .error e) ↔ l = .everything := by
    intro l new
    cases l with
    | only g => simp [entriesUnder]
    | everything => simp [entriesUnder]
  cases s with
  | restrict k l new => exact (hunder l new).symm
  | restrictNamed k name new =>
    rw [entries, Lock.ofName, NamesNone]
    cases hname : Lock.ofName? name with
    | none =>
      refine ⟨fun _ => ⟨_, rfl⟩, fun _ g hg => ?_⟩
      cases hname.symm.trans (Lock.ofName?_eq_some.2 (show (Lock.only g).name = name from hg))
    | some l =>
      obtain rfl := Lock.ofName?_eq_some.1 hname
      refine Iff.trans ?_ (hunder l new).symm
      cases l with
      | only g => exact ⟨fun h => absurd rfl (h g), fun h => by cases h⟩
      | everything => exact ⟨fun _ => rfl, fun _ g => by cases g <;> decide⟩
  | assignmentColumns k => exact ⟨False.elim, fun ⟨_, h⟩ => by cases h⟩

theorem entriesUnder_ne_nil {l : Lock} {new : List String} {es : List (Category × List String)}
    (h : entriesUnder l new = .ok es) : es ≠ [] := by
  cases l with
  | only g =>
    obtain rfl := Except.ok.inj h
    exact List.cons_ne_nil _ _
  | everything => cases h

/-- A step that does not fail adds something. -/
theorem entries_ne_nil {s : Step} {es : List (Category × List String)} (h : s.entries = .ok es) :
    es ≠ [] := by
  cases s with
  | restrict k l new => exact entriesUnder_ne_nil h
  | restrictNamed k name new =>
    rw [entries] at h
    cases hname : Lock.ofName name with
    | error e =>
      rw [hname] at h
      cases h
    | ok l =>
      rw [hname] at h
      exact entriesUnder_ne_nil h
  | assignmentColumns k =>
    obtain rfl := Except.ok.inj h
    exact List.cons_ne_nil _ _

/-- A step has a list for some category exactly if it does not fail. -/
theorem exists_listsFor_iff (s : Step) :
    (∃ k g, s.listsFor k g ≠ []) ↔ ∃ es, s.entries = .ok es := by
  constructor
  · rintro ⟨k, g, h⟩
    rw [listsFor_eq] at h
    cases hes : s.entries with
    | error e => simp [hes] at h
    | ok es => exact ⟨es, rfl⟩
  · rintro ⟨es, hes⟩
    obtain ⟨e, rest, rfl⟩ := List.exists_cons_of_ne_nil (entries_ne_nil hes)
    refine ⟨s.kind, e.1, ?_⟩
    simp [listsFor_eq, hes, listsIn]

theorem apply_eq (s : Step) (r : Registry) :
    s.apply r = s.entries.map (r.restrictAll s.kind) := by
  have hlock : ∀ (k : Kind) (l : Lock) (new : List String),
      r.restrictLock k l new = (entriesUnder l new).map (r.restrictAll k) := by
    intro k l new
    cases l with
    | only g => rfl
    | everything => rfl
  cases s with
  | restrict k l new => exact hlock k l new
  | restrictNamed k name new =>
    rw [apply, Registry.restrictNamed, entries, Lock.ofName]
    cases Lock.ofName? name with
    | none => rfl
    | some l => exact hlock k l new
  | assignmentColumns k => rfl

end Step

/-! ## Steps on the registry at hand -/

/-- What there is after something was tried on a registry. -/
def tried (r : Registry) : Result Registry → Result Unit × Registry
  | .ok r' => (.ok (), r')
  | .error e => (.error e, r)

/-- Adds columns under a lock to the registry at hand. -/
def restrictHere (k : Kind) (l : Lock) (new : List String) : Action Registry Unit :=
  match l with
  | .only g => .modify fun r => r.restrict k g new
  | .everything => .fail .columnsForEverything

theorem run_restrictHere (r : Registry) (k : Kind) (l : Lock) (new : List String) :
    (restrictHere k l new).run r = r.tried (r.restrictLock k l new) := by
  cases l with
  | only g => rfl
  | everything => rfl

theorem run_forM_restrictHere (r : Registry) (k : Kind) (es : List (Category × List String)) :
    (es.forM fun e => restrictHere k (.only e.1) e.2).run r = (.ok (), r.restrictAll k es) := by
  induction es generalizing r with
  | nil => rw [restrictAll_nil]; rfl
  | cons e es ih =>
    rw [restrictAll_cons, ← ih]
    rfl

namespace Step

/-- A step on the registry at hand. The columns of everything handed in and graded are added category by
category. -/
def perform : Step → Action Registry Unit
  | .restrict k l new => restrictHere k l new
  | .restrictNamed k name new => do restrictHere k (← Lock.ofName name) new
  | .assignmentColumns k => Registry.assignmentColumns.forM fun e => restrictHere k (.only e.1) e.2

/-- A step that fails has changed nothing. -/
theorem run_perform (s : Step) (r : Registry) : s.perform.run r = r.tried (s.apply r) := by
  cases s with
  | restrict k l new => exact run_restrictHere r k l new
  | restrictNamed k name new =>
    rw [perform, Action.run_bind, Action.run_liftM, apply, Registry.restrictNamed, Lock.ofName]
    cases Lock.ofName? name with
    | none => rfl
    | some l => exact run_restrictHere r k l new
  | assignmentColumns k => exact run_forM_restrictHere r k _

theorem get_perform (s : Step) (r : Registry) (k : Kind) (g : Category) :
    ((s.perform.run r).2 k).get g = (s.listsFor k g).foldl Schema.layer ((r k).get g) := by
  rw [run_perform, apply_eq, listsFor_eq]
  cases s.entries with
  | error e => rfl
  | ok es => exact get_restrictAll r s.kind k g es

end Step

/-- The registry after several steps on the one at hand, each of which may fail. -/
def performAll (r : Registry) (steps : List Step) : Registry :=
  steps.foldl (fun r s => (s.perform.run r).2) r

theorem performAll_eq_build (r : Registry) (steps : List Step) : r.performAll steps = r.build steps := by
  unfold performAll build
  congr
  funext r s
  rw [Step.run_perform]
  cases s.apply r with
  | ok r' => rfl
  | error e => rfl

/-! ## Whole runs -/

theorem get_performAll (r : Registry) (steps : List Step) (k : Kind) (g : Category) :
    ((r.performAll steps) k).get g =
      (steps.flatMap fun s => s.listsFor k g).foldl Schema.layer ((r k).get g) := by
  unfold performAll
  induction steps generalizing r with
  | nil => rfl
  | cons s steps ih => rw [List.foldl_cons, ih, Step.get_perform, List.flatMap_cons, List.foldl_append]

/-- What a registry that was built in some steps has for every kind. -/
structure BuiltFrom (steps : List Step) (r : Registry) : Prop where
  /-- A category has the columns of all its lists, each where it comes first. -/
  columns_eq : ∀ k g, (r k).columns g = (steps.flatMap fun s => s.listsFor k g).flatten.eraseDups
  /-- A category is registered if it has a list, also one without columns. -/
  mem_categories_iff : ∀ k g, g ∈ (r k).categories ↔ ∃ s ∈ steps, s.listsFor k g ≠ []
  mem_allColumns_iff : ∀ k column, column ∈ (r k).allColumns ↔ ∃ g, column ∈ (r k).columns g

/-- What a step does to a registry. -/
inductive Step.Ends (s : Step) (r : Registry) : Prop
  /-- It names no category, has no lists, and fails without a change. -/
  | failed (e : Failure) (names : s.NamesNone) (lists : ∀ k g, s.listsFor k g = [])
    (run : s.perform.run r = (.error e, r))
  /-- It has a list and adds it. -/
  | done (names : ¬ s.NamesNone) (lists : ∃ k g, s.listsFor k g ≠ [])
    (run : s.perform.run r = (.ok (), r.build [s]))

theorem Step.ends (s : Step) (r : Registry) : s.Ends r := by
  have hrun := s.run_perform r
  have hbuild : r.build [s] = (r.tried (s.apply r)).2 := by
    rw [← performAll_eq_build, ← hrun]
    rfl
  rw [Step.apply_eq] at hrun hbuild
  cases hes : s.entries with
  | error e =>
    rw [hes] at hrun
    refine .failed e (s.namesNone_iff.2 ⟨e, hes⟩) (fun k g => ?_) hrun
    rw [Step.listsFor_eq, hes]
  | ok es =>
    rw [hes] at hrun hbuild
    refine .done (fun h => ?_) (s.exists_listsFor_iff.2 ⟨es, hes⟩) (hbuild ▸ hrun)
    obtain ⟨e, he⟩ := s.namesNone_iff.1 h
    cases hes.symm.trans he

/-- Whatever the steps, those that fail among them, what was built has the columns of all others in
order; and what is done on the registry at hand ends with the same. -/
theorem build_lists (steps : List Step) : (empty.build steps).BuiltFrom steps ∧
    empty.performAll steps = empty.build steps ∧ ∀ (s : Step) (r : Registry), s.Ends r := by
  have hget : ∀ k g, ((empty.build steps) k).get g =
      (steps.flatMap fun s => s.listsFor k g).foldl Schema.layer none := by
    intro k g
    rw [← performAll_eq_build, get_performAll, empty, Schema.none, PerCategory.get_const]
  refine ⟨⟨?_, ?_, fun k column => Schema.mem_allColumns⟩, performAll_eq_build empty steps,
    fun s r => s.ends r⟩
  · intro k g
    rw [Schema.columns, hget, Schema.getD_foldl_layer, Option.getD_none, Schema.addColumns_nil]
  · intro k g
    rw [Schema.mem_categories, ← Option.isSome_iff_exists, hget, Schema.isSome_foldl_layer]
    simp

/-- A step for everything adds nothing, and a category without columns is registered. -/
example : (empty.build [.restrict .quiz (.only .points) [],
    .restrictNamed .quiz "content" ["body", "title"], .restrict .quiz .everything ["tags"],
    .restrict .quiz (.only .content) ["title", "tags", "tags"]] .quiz).entries =
      [(.content, ["body", "title", "tags"]), (.points, [])] := by decide

end Registry

end CourseBlueprint
