import CourseBlueprint.Proofs.Settings

/-!
# Layers of columns

The columns of a configuration come under the names of kinds and of categories, and the maps that hold
them are enumerated in no particular order. They are added to the built-in ones name by name, so each
category of a kind ends with its built-in columns and the configured ones behind them, whichever order it
was (`Registry.get_extend`). A name that is none makes all of it fail (`Registry.exists_extend_iff`).
`Config.registry_layers` puts the two together.
-/

namespace CourseBlueprint

/-! ## Runs that can fail -/

section Runs

variable {α β γ : Type}

theorem Result.foldlM_cons_ok {f : β → α → Result β} {a : α} {as : List α} {b b' : β} :
    (a :: as).foldlM f b = .ok b' ↔ ∃ b₁, f b a = .ok b₁ ∧ as.foldlM f b₁ = .ok b' := by
  rw [List.foldlM_cons]
  cases f b a with
  | error e =>
    constructor
    · intro h
      cases h
    · rintro ⟨_, h, -⟩
      cases h
  | ok b₁ =>
    constructor
    · intro h
      exact ⟨b₁, rfl, h⟩
    · rintro ⟨b₂, h, hrest⟩
      rw [Except.ok.inj h]
      exact hrest

/-- If what was done before does not matter for whether a step succeeds, a run succeeds exactly if each of
its steps does. -/
theorem Result.exists_foldlM_iff {P : α → Prop} {f : β → α → Result β}
    (hstep : ∀ b a, (∃ b', f b a = .ok b') ↔ P a) (as : List α) (b : β) :
    (∃ b', as.foldlM f b = .ok b') ↔ ∀ a ∈ as, P a := by
  induction as generalizing b with
  | nil => exact ⟨fun _ a ha => absurd ha List.not_mem_nil, fun _ => ⟨b, rfl⟩⟩
  | cons a as ih =>
    constructor
    · rintro ⟨b', h⟩
      obtain ⟨b₁, hfirst, hrest⟩ := Result.foldlM_cons_ok.1 h
      exact List.forall_mem_cons.2 ⟨(hstep b a).1 ⟨b₁, hfirst⟩, (ih b₁).1 ⟨b', hrest⟩⟩
    · intro h
      obtain ⟨ha, has⟩ := List.forall_mem_cons.1 h
      obtain ⟨b₁, hfirst⟩ := (hstep b a).2 ha
      obtain ⟨b', hrest⟩ := (ih b₁).2 has
      exact ⟨b', Result.foldlM_cons_ok.2 ⟨b₁, hfirst, hrest⟩⟩

theorem Dict.lookup_of_not_mem {key : String} {es : List (String × α)} (h : key ∉ es.map Prod.fst) :
    lookup key es = none := by
  induction es with
  | nil => rfl
  | cons e es ih =>
    rw [List.map_cons, List.mem_cons, not_or] at h
    rw [lookup, if_neg h.1, ih h.2]

theorem Dict.lookup_eq_some_of_nodup {key : String} {a : α} {es : List (String × α)}
    (hnodup : (es.map Prod.fst).Nodup) : lookup key es = some a ↔ (key, a) ∈ es := by
  induction es with
  | nil => exact ⟨fun h => (by cases h), fun h => absurd h List.not_mem_nil⟩
  | cons e es ih =>
    obtain ⟨k, a'⟩ := e
    rw [List.map_cons, List.nodup_cons] at hnodup
    rw [lookup, List.mem_cons, Prod.mk.injEq]
    by_cases hk : key = k
    · subst hk
      rw [if_pos rfl]
      constructor
      · intro h
        exact .inl ⟨rfl, (Option.some.inj h).symm⟩
      · rintro (⟨-, rfl⟩ | hmem)
        · rfl
        · exact absurd (List.mem_map_of_mem hmem) hnodup.1
    · rw [if_neg hk, ih hnodup.2]
      exact ⟨.inr, fun h => h.resolve_left fun heq => hk heq.1⟩

theorem Dict.nodup_keys (d : Dict α) : d.keys.Nodup :=
  d.sorted_keys.imp fun {k k'} (hlt : k < k') (heq : k = k') => String.lt_irrefl k' (heq ▸ hlt)

/-- The one step of a run that concerns a key decides what is read there at the end. -/
theorem Result.read_foldlM (read : β → γ) (update : γ → α → γ) (key : String)
    {f : β → String × α → Result β} {es : List (String × α)} (hnodup : (es.map Prod.fst).Nodup)
    (hstep : ∀ e ∈ es, ∀ b b', f b e = .ok b' →
      read b' = if e.1 = key then update (read b) e.2 else read b)
    {b b' : β} (h : es.foldlM f b = .ok b') :
    read b' = ((Dict.lookup key es).map (update (read b))).getD (read b) := by
  induction es generalizing b with
  | nil =>
    obtain rfl := Except.ok.inj h
    rfl
  | cons e es ih =>
    obtain ⟨name, a⟩ := e
    rw [List.map_cons, List.nodup_cons] at hnodup
    obtain ⟨hnew, hnodup⟩ := hnodup
    obtain ⟨b₁, hfirst, hrest⟩ := Result.foldlM_cons_ok.1 h
    have hread := hstep _ List.mem_cons_self b b₁ hfirst
    rw [ih hnodup (fun e he => hstep e (List.mem_cons_of_mem _ he)) hrest, hread, Dict.lookup]
    by_cases hname : key = name
    · subst hname
      rw [Dict.lookup_of_not_mem hnew, if_pos rfl, if_pos rfl]
      rfl
    · rw [if_neg hname, if_neg (Ne.symm hname)]

end Runs

/-! ## Names -/

theorem Kind.ofName_eq_ok {text : String} {k : Kind} : Kind.ofName text = .ok k ↔ k.name = text := by
  rw [← Kind.ofName?_eq_some, ofName]
  cases Kind.ofName? text with
  | none => exact ⟨fun h => (by cases h), fun h => (by cases h)⟩
  | some k' => exact ⟨fun h => congrArg some (Except.ok.inj h), fun h => congrArg _ (Option.some.inj h)⟩

/-! ## Columns of one category -/

namespace Schema

/-- The columns of a category after some are added. -/
def layer (old : Option (List String)) (new : List String) : Option (List String) :=
  some (addColumns (old.getD []) new)

end Schema

namespace Registry

/-- No column is built in twice. -/
theorem nodup_builtin (k : Kind) (g : Category) : ((builtin k).columns g).Nodup := by
  cases k <;> cases g <;> decide

/-- Columns under a lock given by name are added if the name is that of a category. -/
theorem restrictNamed_eq_ok {r r' : Registry} {k : Kind} {name : String} {new : List String} :
    r.restrictNamed k name new = .ok r' ↔ ∃ g : Category, g.name = name ∧ r' = r.restrict k g new := by
  constructor
  · intro h
    unfold restrictNamed restrictLock at h
    split at h
    · next l hname =>
      split at h
      · next g => exact ⟨g, Lock.ofName?_eq_some.1 hname, (Except.ok.inj h).symm⟩
      · cases h
    · cases h
  · rintro ⟨g, rfl, rfl⟩
    have hname : Lock.ofName? g.name = some (.only g) := Lock.ofName?_name (.only g)
    rw [restrictNamed, hname]
    rfl

theorem get_restrict (r : Registry) (k k' : Kind) (g g' : Category) (new : List String) :
    ((r.restrict k g new) k').get g' =
      if k' = k ∧ g' = g then Schema.layer ((r k).get g) new else (r k').get g' := by
  unfold restrict
  by_cases hk : k' = k
  · subst hk
    rw [if_pos rfl, Schema.restrict, PerCategory.get_set]
    by_cases hg : g' = g
    · rw [if_pos hg, if_pos ⟨rfl, hg⟩]
      rfl
    · rw [if_neg hg, if_neg fun h => hg h.2]
  · rw [if_neg hk, if_neg fun h => hk h.1]

/-! ## Columns of a listing -/

/-- Columns to add, under the names of kinds and categories in the order in which they are enumerated. -/
abbrev Listing := List (String × List (String × List String))

/-- Adds columns to categories of a kind, which are given by name. -/
def restrictEach (r : Registry) (k : Kind) (categories : List (String × List String)) :
    Result Registry :=
  categories.foldlM (fun r e => r.restrictNamed k e.1 e.2) r

/-- Adds all columns of a listing. -/
def extend (r : Registry) (listing : Listing) : Result Registry :=
  listing.foldlM (fun r e => do
    let k ← Kind.ofName e.1
    r.restrictEach k e.2) r

/-- Whether the names of a listing are those of kinds and categories. -/
def Named (listing : Listing) : Prop :=
  ∀ e ∈ listing, (∃ k : Kind, k.name = e.1) ∧ ∀ e' ∈ e.2, ∃ g : Category, g.name = e'.1

theorem exists_restrictEach_iff (r : Registry) (k : Kind) (categories : List (String × List String)) :
    (∃ r', r.restrictEach k categories = .ok r') ↔ ∀ e ∈ categories, ∃ g : Category, g.name = e.1 := by
  refine Result.exists_foldlM_iff (fun r e => ?_) categories r
  constructor
  · rintro ⟨r', h⟩
    obtain ⟨g, hg, -⟩ := restrictNamed_eq_ok.1 h
    exact ⟨g, hg⟩
  · rintro ⟨g, hg⟩
    exact ⟨_, restrictNamed_eq_ok.2 ⟨g, hg, rfl⟩⟩

/-- A step for a kind adds the columns of its categories, once the name is that of a kind. -/
theorem extend_step_eq_ok {r r' : Registry} {e : String × List (String × List String)} :
    (do
      let k ← Kind.ofName e.1
      r.restrictEach k e.2) = .ok r' ↔ ∃ k : Kind, k.name = e.1 ∧ r.restrictEach k e.2 = .ok r' := by
  constructor
  · intro h
    cases hname : Kind.ofName e.1 with
    | error f =>
      rw [hname] at h
      cases h
    | ok k =>
      rw [hname] at h
      exact ⟨k, Kind.ofName_eq_ok.1 hname, h⟩
  · rintro ⟨k, hname, h⟩
    rw [Kind.ofName_eq_ok.2 hname]
    exact h

/-- A listing is added exactly if all of its names are names. -/
theorem exists_extend_iff (r : Registry) (listing : Listing) :
    (∃ r', r.extend listing = .ok r') ↔ Named listing := by
  refine Result.exists_foldlM_iff (fun r e => ?_) listing r
  constructor
  · rintro ⟨r', h⟩
    obtain ⟨k, hk, h⟩ := extend_step_eq_ok.1 h
    exact ⟨⟨k, hk⟩, (exists_restrictEach_iff r k e.2).1 ⟨r', h⟩⟩
  · rintro ⟨⟨k, hk⟩, hcategories⟩
    obtain ⟨r', h⟩ := (exists_restrictEach_iff r k e.2).2 hcategories
    exact ⟨r', extend_step_eq_ok.2 ⟨k, hk, h⟩⟩

/-- The columns under a kind leave other kinds alone. -/
theorem restrictEach_of_ne {r r' : Registry} {k k' : Kind} {categories : List (String × List String)}
    (hk : k' ≠ k) (h : r.restrictEach k categories = .ok r') : r' k' = r k' := by
  refine Result.foldlM_keeps (P := fun r₁ => r₁ k' = r k') ?_ rfl h
  intro r₁ e r₂ hr₁ hstep
  obtain ⟨g, -, rfl⟩ := restrictNamed_eq_ok.1 hstep
  rw [restrict, if_neg hk, hr₁]

theorem get_restrictEach {r r' : Registry} {k : Kind} {categories : List (String × List String)}
    (hnodup : (categories.map Prod.fst).Nodup) (h : r.restrictEach k categories = .ok r')
    (g : Category) : (r' k).get g =
      ((Dict.lookup g.name categories).map (Schema.layer ((r k).get g))).getD ((r k).get g) := by
  refine Result.read_foldlM (fun r => (r k).get g) Schema.layer g.name hnodup ?_ h
  intro e _ r₁ r₂ hstep
  obtain ⟨g', hg', rfl⟩ := restrictNamed_eq_ok.1 hstep
  rw [get_restrict]
  by_cases hg : g = g'
  · subst hg
    rw [if_pos ⟨rfl, rfl⟩, if_pos hg'.symm]
  · rw [if_neg fun h => hg h.2, if_neg fun h => hg (Category.name_inj (h.symm.trans hg'.symm))]

/-- The columns that a listing has for a category of a kind. -/
def listed (listing : Listing) (k : Kind) (g : Category) : Option (List String) :=
  (Dict.lookup k.name listing).bind (Dict.lookup g.name)

/-- Every category keeps its columns and gets those that are listed for it. -/
theorem get_extend {r r' : Registry} {listing : Listing} (hkinds : (listing.map Prod.fst).Nodup)
    (hcategories : ∀ e ∈ listing, (e.2.map Prod.fst).Nodup) (h : r.extend listing = .ok r') (k : Kind)
    (g : Category) : (r' k).get g =
      ((listed listing k g).map (Schema.layer ((r k).get g))).getD ((r k).get g) := by
  have hread := Result.read_foldlM (fun r => (r k).get g) (fun old categories =>
    ((Dict.lookup g.name categories).map (Schema.layer old)).getD old) k.name hkinds ?_ h
  · rw [hread, listed]
    cases Dict.lookup k.name listing with
    | none => rfl
    | some categories => rfl
  · intro e he r₁ r₂ hstep
    obtain ⟨k', hk', hstep⟩ := extend_step_eq_ok.1 hstep
    by_cases hk : k = k'
    · subst hk
      rw [if_pos hk'.symm, get_restrictEach (hcategories e he) hstep]
    · rw [if_neg fun h => hk (Kind.name_inj (h.symm.trans hk'.symm)), restrictEach_of_ne hk hstep]

end Registry

namespace Config

variable {c : Config} {es : Registry.Listing} {r : Registry}

/-- The columns that a configuration has for a category of a kind. -/
def configured (c : Config) (k : Kind) (g : Category) : Option (List String) :=
  ((c.extraColumns.getD ∅).get? k.name).bind fun categories => categories.get? g.name

/-- Whether the configured columns stand under the names of kinds and categories only. -/
def Named (c : Config) : Prop :=
  ∀ name categories, (c.extraColumns.getD ∅).get? name = some categories →
    (∃ k : Kind, k.name = name) ∧ ∀ name' ∈ categories.keys, ∃ g : Category, g.name = name'

/-- A listing enumerates the configured columns: it has every name of a kind once, and the categories
under it in any order. -/
structure Lists (c : Config) (es : Registry.Listing) : Prop where
  nodup : (es.map Prod.fst).Nodup
  categories : ∀ e ∈ es, ∃ d, (c.extraColumns.getD ∅).get? e.1 = some d ∧ e.2.Perm d.entries
  complete : ∀ name ∈ (c.extraColumns.getD ∅).keys, name ∈ es.map Prod.fst

/-- The configured columns in the order of their names. -/
def listing (c : Config) : Registry.Listing :=
  (c.extraColumns.getD ∅).entries.map fun e => (e.1, e.2.entries)

theorem registry_eq_extend (c : Config) : c.registry = Registry.builtin.extend c.listing := by
  unfold registry Registry.extend listing
  rw [List.foldlM_map]
  rfl

theorem lists_listing (c : Config) : c.Lists c.listing := by
  have hnames : c.listing.map Prod.fst = (c.extraColumns.getD ∅).keys := List.map_map
  constructor
  · rw [hnames]
    exact (c.extraColumns.getD ∅).nodup_keys
  · intro e he
    obtain ⟨⟨name, d⟩, hd, rfl⟩ := List.mem_map.1 he
    exact ⟨d, Dict.get?_eq_some_iff.2 hd, .refl _⟩
  · intro name hname
    rw [hnames]
    exact hname

theorem Lists.nodup_categories (h : c.Lists es) :
    ∀ e ∈ es, (e.2.map Prod.fst).Nodup := by
  intro e he
  obtain ⟨d, -, hperm⟩ := h.categories e he
  exact (hperm.map Prod.fst).nodup_iff.2 d.nodup_keys

/-- Whatever the order, a listing has for each category of a kind what is configured for it. -/
theorem Lists.listed_eq (h : c.Lists es) (k : Kind) (g : Category) :
    Registry.listed es k g = c.configured k g := by
  refine Option.ext fun columns => ?_
  rw [Registry.listed, configured, Option.bind_eq_some_iff, Option.bind_eq_some_iff]
  constructor
  · rintro ⟨categories, hkind, hcategory⟩
    have hmem := (Dict.lookup_eq_some_of_nodup h.nodup).1 hkind
    obtain ⟨d, hd, hperm⟩ := h.categories _ hmem
    have hcategory := (Dict.lookup_eq_some_of_nodup (h.nodup_categories _ hmem)).1 hcategory
    exact ⟨d, hd, Dict.get?_eq_some_iff.2 (hperm.mem_iff.1 hcategory)⟩
  · rintro ⟨d, hd, hcategory⟩
    obtain ⟨⟨name, categories⟩, hmem, rfl⟩ :=
      List.mem_map.1 (h.complete k.name (Dict.mem_keys_iff.2 (by rw [hd]; rfl)))
    obtain ⟨d', hd', hperm⟩ := h.categories _ hmem
    obtain rfl := Option.some.inj (hd'.symm.trans hd)
    have hcategory := hperm.mem_iff.2 (Dict.get?_eq_some_iff.1 hcategory)
    exact ⟨categories, (Dict.lookup_eq_some_of_nodup h.nodup).2 hmem,
      (Dict.lookup_eq_some_of_nodup (h.nodup_categories _ hmem)).2 hcategory⟩

/-- Whatever the order, a listing has names only if the configuration has. -/
theorem Lists.named_iff (h : c.Lists es) : Registry.Named es ↔ c.Named := by
  constructor
  · intro hnamed name d hd
    obtain ⟨⟨_, categories⟩, hmem, rfl⟩ :=
      List.mem_map.1 (h.complete name (Dict.mem_keys_iff.2 (by rw [hd]; rfl)))
    obtain ⟨hkind, hcategories⟩ := hnamed _ hmem
    obtain ⟨d', hd', hperm⟩ := h.categories _ hmem
    obtain rfl := Option.some.inj (hd'.symm.trans hd)
    refine ⟨hkind, fun name' hname' => ?_⟩
    obtain ⟨e, he, rfl⟩ := List.mem_map.1 hname'
    exact hcategories e (hperm.mem_iff.2 he)
  · intro hnamed e he
    obtain ⟨d, hd, hperm⟩ := h.categories e he
    obtain ⟨hkind, hcategories⟩ := hnamed e.1 d hd
    exact ⟨hkind, fun e' he' => hcategories e'.1 (List.mem_map_of_mem (hperm.mem_iff.1 he'))⟩

theorem Lists.get_extend (h : c.Lists es) (hr : Registry.builtin.extend es = .ok r)
    (k : Kind) (g : Category) : (r k).get g =
      ((c.configured k g).map (Schema.layer ((Registry.builtin k).get g))).getD
        ((Registry.builtin k).get g) := by
  rw [Registry.get_extend h.nodup h.nodup_categories hr, h.listed_eq]

/-- What comes of one listing comes of every other one of the same columns. -/
theorem Lists.extend_of_lists {es' : Registry.Listing} (h : c.Lists es) (h' : c.Lists es')
    (hr : Registry.builtin.extend es = .ok r) : Registry.builtin.extend es' = .ok r := by
  have hnamed := (Registry.exists_extend_iff _ es).1 ⟨r, hr⟩
  rw [h.named_iff, ← h'.named_iff] at hnamed
  obtain ⟨r', hr'⟩ := (Registry.exists_extend_iff _ es').2 hnamed
  have heq : r' = r := by
    refine funext fun k => PerCategory.ext_get fun g => ?_
    rw [h.get_extend hr, h'.get_extend hr']
  rw [hr', heq]

/-! ## The registry of a configuration -/

/-- The configured columns of a category that are not built in, each where it comes first. -/
def added (c : Config) (k : Kind) (g : Category) : List String :=
  (((c.configured k g).getD []).filter fun column =>
    !decide (column ∈ (Registry.builtin k).columns g)).eraseDups

/-- The registry is the built-in one with the configured columns behind the others, none of them twice. -/
structure Layers (c : Config) (r : Registry) : Prop where
  columns_eq : ∀ k g, (r k).columns g = (Registry.builtin k).columns g ++ c.added k g
  nodup : ∀ k g, ((r k).columns g).Nodup
  registered_iff : ∀ k g,
    g ∈ (r k).categories ↔ g ∈ (Registry.builtin k).categories ∨ (c.configured k g).isSome = true
  not_everything : ∀ k, Lock.everything.name ∉ (r k).categories.map Category.name

theorem layers_of_registry (hr : c.registry = .ok r) : c.Layers r := by
  have hget := c.lists_listing.get_extend (c.registry_eq_extend.symm.trans hr)
  have hcolumns : ∀ k g, (r k).columns g =
      Schema.addColumns ((Registry.builtin k).columns g) ((c.configured k g).getD []) := by
    intro k g
    rw [Schema.columns, hget]
    cases c.configured k g with
    | none => rfl
    | some new => rfl
  refine ⟨fun k g => ?_, fun k g => ?_, fun k g => ?_, fun k => ?_⟩
  · rw [hcolumns, Schema.addColumns_eq, added]
  · rw [hcolumns]
    exact Schema.nodup_addColumns (Registry.nodup_builtin k g) _
  · rw [Schema.mem_categories, Schema.mem_categories, hget]
    cases c.configured k g with
    | none => simp
    | some new => simp [Schema.layer]
  · rw [List.mem_map]
    rintro ⟨g, -, hg⟩
    exact absurd hg (by cases g <;> decide)

/-- The registry of a configuration exists exactly if all names in it are names. It adds the configured
columns to the built-in ones, and the same whatever the order in which they are enumerated. -/
theorem registry_layers (c : Config) :
    ((∃ r, c.registry = .ok r) ↔ c.Named) ∧ (∀ r, c.registry = .ok r → c.Layers r) ∧
      ∀ es, c.Lists es → ∀ r, Registry.builtin.extend es = .ok r ↔ c.registry = .ok r := by
  refine ⟨?_, fun r => layers_of_registry, fun es hlists r => ?_⟩
  · rw [registry_eq_extend, Registry.exists_extend_iff, c.lists_listing.named_iff]
  · rw [registry_eq_extend]
    exact ⟨hlists.extend_of_lists c.lists_listing, c.lists_listing.extend_of_lists hlists⟩

end Config

namespace Sample

/-- More columns for quizzes, one of them built in and one repeated, and for pages. -/
def moreColumns : Config :=
  { Config.usual with
    extraColumns := some (.ofList [("quiz", .ofList [("content", ["tags", "title", "tags"])]),
      ("wiki_page", .ofList [("points", ["score"])])]) }

/-- The same columns, with the pages first. -/
def pagesFirst : Registry.Listing :=
  [("wiki_page", [("points", ["score"])]), ("quiz", [("content", ["tags", "title", "tags"])])]

/-- With the pages first, a quiz still has its new column once, behind the built-in ones. -/
theorem registry_layers_pagesFirst :
    moreColumns.Lists pagesFirst ∧ ∃ r, Registry.builtin.extend pagesFirst = .ok r ∧
      (r .quiz).columns .content = ["title", "description", "quiz_data", "tags"] := by
  have hlists : moreColumns.Lists pagesFirst := by
    refine ⟨by decide, ?_, by decide⟩
    intro e he
    rcases List.mem_cons.1 he with rfl | he
    · exact ⟨_, rfl, .refl _⟩
    · obtain rfl := List.mem_singleton.1 he
      exact ⟨_, rfl, .refl _⟩
  obtain ⟨r, hr⟩ : ∃ r, moreColumns.registry = .ok r := ⟨_, rfl⟩
  obtain ⟨-, hlayers, horder⟩ := Config.registry_layers moreColumns
  refine ⟨hlists, r, (horder _ hlists r).2 hr, ?_⟩
  rw [(hlayers r hr).columns_eq]
  decide

end Sample

end CourseBlueprint
