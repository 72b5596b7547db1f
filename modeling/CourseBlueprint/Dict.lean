/-!
# Dictionaries

A `Dict α` maps finitely many texts to values of `α`. Its entries are listed in increasing order of
their keys, each key once, so that equal look-ups mean equal dictionaries (`Dict.eq_of_get?_eq`).
-/

namespace CourseBlueprint

/-- A finite map from texts, its entries in increasing order of the keys. -/
structure Dict (α : Type) where
  entries : List (String × α)
  sorted : entries.Pairwise (·.1 < ·.1)
deriving DecidableEq

namespace Dict

variable {α β : Type}

/-! ## Algorithm -/

/-- The value listed under a key. -/
def lookup (key : String) : List (String × α) → Option α
  | [] => none
  | (k, v) :: rest => if key = k then some v else lookup key rest

/-- Puts an entry at its place in a list ordered by keys, in place of one with the same key. -/
def putSorted (key : String) (value : α) : List (String × α) → List (String × α)
  | [] => [(key, value)]
  | (k, v) :: rest =>
    if key < k then (key, value) :: (k, v) :: rest
    else if key = k then (key, value) :: rest
    else (k, v) :: putSorted key value rest

theorem fst_of_mem_putSorted {key : String} {value : α} {es : List (String × α)} {e : String × α}
    (h : e ∈ putSorted key value es) : e.1 = key ∨ e ∈ es := by
  induction es with
  | nil => simp [putSorted] at h; simp [h]
  | cons x rest ih =>
    obtain ⟨k, v⟩ := x
    unfold putSorted at h
    split at h
    · rcases List.mem_cons.1 h with rfl | h
      · exact .inl rfl
      · exact .inr h
    · split at h
      · rcases List.mem_cons.1 h with rfl | h
        · exact .inl rfl
        · exact .inr (List.mem_cons_of_mem _ h)
      · rcases List.mem_cons.1 h with rfl | h
        · exact .inr List.mem_cons_self
        · exact (ih h).imp id (List.mem_cons_of_mem _)

theorem sorted_putSorted {key : String} {value : α} {es : List (String × α)}
    (h : es.Pairwise (·.1 < ·.1)) : (putSorted key value es).Pairwise (·.1 < ·.1) := by
  induction es with
  | nil => simp [putSorted]
  | cons x rest ih =>
    obtain ⟨k, v⟩ := x
    obtain ⟨hk, hrest⟩ := List.pairwise_cons.1 h
    unfold putSorted
    split
    · next hlt =>
      refine List.pairwise_cons.2 ⟨fun e he => ?_, h⟩
      rcases List.mem_cons.1 he with rfl | he
      · exact hlt
      · exact String.lt_trans hlt (hk e he)
    · split
      · next heq => subst heq; exact List.pairwise_cons.2 ⟨hk, hrest⟩
      · next hlt hne =>
        refine List.pairwise_cons.2 ⟨fun e he => ?_, ih hrest⟩
        rcases fst_of_mem_putSorted he with h1 | he
        · show k < e.1
          rw [h1]
          by_cases hkk : k < key
          · exact hkk
          · exact absurd (String.le_antisymm (String.not_lt.1 hkk) (String.not_lt.1 hlt)) hne
        · exact hk e he

/-- The dictionary without entries. -/
def empty : Dict α := ⟨[], .nil⟩

instance : EmptyCollection (Dict α) := ⟨empty⟩
instance : Inhabited (Dict α) := ⟨empty⟩

/-- The value of a key. -/
def get? (d : Dict α) (key : String) : Option α := lookup key d.entries

/-- The dictionary with a key set to a value. -/
def put (d : Dict α) (key : String) (value : α) : Dict α :=
  ⟨putSorted key value d.entries, sorted_putSorted d.sorted⟩

/-- The dictionary without a key. -/
def erase (d : Dict α) (key : String) : Dict α :=
  ⟨d.entries.filter fun e => !decide (e.1 = key), d.sorted.filter _⟩

/-- The dictionary of a list of entries, of which the last one of a key counts. -/
def ofList (es : List (String × α)) : Dict α :=
  es.foldl (fun d e => d.put e.1 e.2) ∅

/-- The keys, in increasing order. -/
def keys (d : Dict α) : List String := d.entries.map Prod.fst

/-- Whether a key has a value. -/
def contains (d : Dict α) (key : String) : Bool := (d.get? key).isSome

/-- Whether there is no entry. -/
def isEmpty (d : Dict α) : Bool := d.entries.isEmpty

/-! ## Lemmas -/

@[simp] theorem get?_empty (key : String) : (∅ : Dict α).get? key = none := rfl

theorem lookup_putSorted {key k : String} {value : α} {es : List (String × α)} :
    lookup k (putSorted key value es) = if k = key then some value else lookup k es := by
  induction es with
  | nil => simp [putSorted, lookup]
  | cons x rest ih =>
    obtain ⟨k', v⟩ := x
    unfold putSorted
    split
    · simp [lookup]
    · split
      · next heq => subst heq; by_cases hk : k = key <;> simp [lookup, hk]
      · next hne =>
        by_cases hk : k = k'
        · subst hk; simp [lookup, Ne.symm hne]
        · simp [lookup, hk, ih]

theorem get?_put {d : Dict α} {key k : String} {value : α} :
    (d.put key value).get? k = if k = key then some value else d.get? k :=
  lookup_putSorted

@[simp] theorem get?_put_self {d : Dict α} {key : String} {value : α} :
    (d.put key value).get? key = some value := by simp [get?_put]

theorem get?_put_of_ne {d : Dict α} {key k : String} {value : α} (h : k ≠ key) :
    (d.put key value).get? k = d.get? k := by simp [get?_put, h]

theorem get?_erase {d : Dict α} {key k : String} :
    (d.erase key).get? k = if k = key then none else d.get? k := by
  obtain ⟨es, hs⟩ := d
  show lookup k (es.filter fun e => !decide (e.1 = key)) = if k = key then none else lookup k es
  clear hs
  induction es with
  | nil => simp [lookup]
  | cons x rest ih =>
    obtain ⟨k', v⟩ := x
    by_cases h' : k' = key
    · subst h'
      by_cases hk : k = k'
      · subst hk; simpa using ih
      · simp [lookup, hk] at ih ⊢; exact ih
    · by_cases hk : k = k'
      · subst hk; simp [lookup, h']
      · simp [lookup, h', hk, ih]

theorem lookup_eq_some_iff {es : List (String × α)} (hs : es.Pairwise (·.1 < ·.1)) {key : String}
    {value : α} : lookup key es = some value ↔ (key, value) ∈ es := by
  induction es with
  | nil => simp [lookup]
  | cons x rest ih =>
    obtain ⟨k, v⟩ := x
    obtain ⟨hk, hrest⟩ := List.pairwise_cons.1 hs
    by_cases h : key = k
    · subst h
      simp only [lookup, if_pos, Option.some.injEq, List.mem_cons, Prod.mk.injEq, true_and]
      constructor
      · rintro rfl; exact .inl rfl
      · rintro (rfl | hm)
        · rfl
        · exact absurd (hk _ hm) (String.lt_irrefl key)
    · simp [lookup, h, ih hrest]

theorem get?_eq_some_iff {d : Dict α} {key : String} {value : α} :
    d.get? key = some value ↔ (key, value) ∈ d.entries :=
  lookup_eq_some_iff d.sorted

theorem mem_keys_iff {d : Dict α} {key : String} : key ∈ d.keys ↔ (d.get? key).isSome := by
  simp only [keys, List.mem_map, Prod.exists, Option.isSome_iff_exists, get?_eq_some_iff]
  constructor
  · rintro ⟨k, v, hm, rfl⟩; exact ⟨v, hm⟩
  · rintro ⟨v, hm⟩; exact ⟨key, v, hm, rfl⟩

/-- The keys are listed in increasing order. -/
theorem sorted_keys (d : Dict α) : d.keys.Pairwise (· < ·) :=
  List.pairwise_map.2 d.sorted

theorem lookup_eq_none_of_lt {key : String} {es : List (String × α)} (h : ∀ e ∈ es, key < e.1) :
    lookup key es = none := by
  induction es with
  | nil => rfl
  | cons x rest ih =>
    obtain ⟨k, v⟩ := x
    have hne : key ≠ k := fun heq => String.lt_irrefl key (heq ▸ h (k, v) List.mem_cons_self)
    rw [lookup, if_neg hne]
    exact ih fun e he => h e (List.mem_cons_of_mem _ he)

theorem eq_of_sorted_of_lookup_eq {es fs : List (String × α)} (he : es.Pairwise (·.1 < ·.1))
    (hf : fs.Pairwise (·.1 < ·.1)) (h : ∀ k, lookup k es = lookup k fs) : es = fs := by
  induction es generalizing fs with
  | nil =>
    cases fs with
    | nil => rfl
    | cons y fs => obtain ⟨k, v⟩ := y; simpa [lookup] using h k
  | cons x es ih =>
    obtain ⟨kx, vx⟩ := x
    cases fs with
    | nil => simpa [lookup] using h kx
    | cons y fs =>
      obtain ⟨ky, vy⟩ := y
      obtain ⟨hx, he'⟩ := List.pairwise_cons.1 he
      obtain ⟨hy, hf'⟩ := List.pairwise_cons.1 hf
      have hxm : (kx, vx) ∈ (ky, vy) :: fs :=
        (lookup_eq_some_iff hf).1 ((h kx).symm.trans (by simp [lookup]))
      have hym : (ky, vy) ∈ (kx, vx) :: es :=
        (lookup_eq_some_iff he).1 ((h ky).trans (by simp [lookup]))
      have hxy : kx = ky ∧ vx = vy := by
        rcases List.mem_cons.1 hxm with h1 | h1
        · exact Prod.mk.injEq .. ▸ h1
        · rcases List.mem_cons.1 hym with h2 | h2
          · exact ⟨(congrArg Prod.fst h2).symm, (congrArg Prod.snd h2).symm⟩
          · exact absurd (hx _ h2) (String.lt_asymm (hy _ h1))
      obtain ⟨rfl, rfl⟩ := hxy
      refine congrArg ((kx, vx) :: ·) (ih he' hf' fun k => ?_)
      by_cases hk : k = kx
      · subst hk
        rw [lookup_eq_none_of_lt hx, lookup_eq_none_of_lt hy]
      · have := h k
        simpa [lookup, hk] using this

/-- Dictionaries with the same look-ups are equal. -/
theorem eq_of_get?_eq {d e : Dict α} (h : ∀ k, d.get? k = e.get? k) : d = e := by
  obtain ⟨es, hes⟩ := d
  obtain ⟨fs, hfs⟩ := e
  have : es = fs := eq_of_sorted_of_lookup_eq hes hfs h
  subst this
  rfl

end Dict

end CourseBlueprint
