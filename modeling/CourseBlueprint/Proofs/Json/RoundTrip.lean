import CourseBlueprint.Proofs.Json.Layout
import CourseBlueprint.Proofs.Json.Meaning

/-!
# Values read back

A value without binary64 numbers is written as a document that means it, as deep as the value is
(`exists_isWritten`). Hence the compact text of a value of at most 127 levels reads back as the value
(`exists_ofText?_compact`), also at the limits of 64 bits and whatever its strings hold.
-/

namespace CourseBlueprint.Json

/-! ## Integers -/

theorem digitsValue_toDigits (n : Nat) :
    Number.digitsValue ((Nat.toDigits 10 n).map digitOf) = n := by
  have hdigits : ∀ c ∈ Nat.toDigits 10 n, c.isDigit = true :=
    fun c hc => Nat.isDigit_of_mem_toDigits (by decide) (by decide) hc
  have hfold (cs : List Char) (h : ∀ c ∈ cs, c.isDigit = true) (acc : Nat) :
      (cs.map digitOf).foldl (fun acc d => 10 * acc + d.val) acc = Nat.ofDigitChars 10 cs acc := by
    induction cs generalizing acc with
    | nil => rfl
    | cons c cs ih =>
      rw [List.map_cons, List.foldl_cons, val_digitOf (h c List.mem_cons_self),
        ih fun c' hc => h c' (List.mem_cons_of_mem _ hc), Nat.ofDigitChars_cons]
  rw [Number.digitsValue, hfold _ hdigits]
  exact Nat.ofDigitChars_ten_toDigits

/-- The first digit of a positive number is not zero. -/
theorem exists_toDigits {n : Nat} (hn : 0 < n) :
    ∃ d ds, (Nat.toDigits 10 n).map digitOf = d :: ds ∧ d ≠ 0 := by
  induction n using Nat.strongRecOn with
  | ind n ih =>
    cases hlt : decide (n < 10) with
    | true =>
      have hdigit : ∀ n, n < 10 → 0 < n → digitOf (Nat.digitChar n) ≠ 0 := by decide
      rw [Nat.toDigits_of_lt_base (of_decide_eq_true hlt)]
      exact ⟨_, [], rfl, hdigit n (of_decide_eq_true hlt) hn⟩
    | false =>
      have hle : 10 ≤ n := Nat.not_lt.1 (of_decide_eq_false hlt)
      obtain ⟨d, ds, hds, hd⟩ :=
        ih (n / 10) (Nat.div_lt_self hn (by decide)) (Nat.div_pos hle (by decide))
      rw [Nat.toDigits_of_base_le (by decide) hle, List.map_append, hds]
      exact ⟨d, _, rfl, hd⟩

theorem Numeral.isWritable_ofInt (n : Int) : (Numeral.ofInt n).IsWritable := by
  refine ⟨?_, by rintro _ ⟨⟩⟩
  rw [Numeral.ofInt]
  rcases Nat.eq_zero_or_pos n.natAbs with hn | hn
  · rw [hn]
    exact .zero
  · obtain ⟨d, ds, hds, hd⟩ := exists_toDigits hn
    simp only [hds]
    exact .digits hd ds

theorem Numeral.writes_ofInt (n : Int) : (Numeral.ofInt n).Writes n := by
  refine ⟨rfl, rfl, ?_, fun hneg => ?_⟩
  · simp only [Numeral.ofInt, digitsValue_toDigits, decide_eq_true_eq]
    split <;> omega
  · have : n < 0 := of_decide_eq_true hneg
    omega

/-! ## Parts of values -/

mutual

/-- A value and the values in it. -/
def parts : Json → List Json
  | .array items => .array items :: partsOfItems items
  | .object fields => .object fields :: partsOfFields fields
  | v => [v]

/-- The values in items. -/
def partsOfItems : List Json → List Json
  | [] => []
  | v :: rest => v.parts ++ partsOfItems rest

/-- The values in fields. -/
def partsOfFields : List (String × Json) → List Json
  | [] => []
  | (_, v) :: rest => v.parts ++ partsOfFields rest

end

mutual

/-- How many arrays and objects a value has in each other. -/
def depth : Json → Nat
  | .array items => itemsDepth items + 1
  | .object fields => fieldsDepth fields + 1
  | _ => 0

/-- The depth of the deepest item. -/
def itemsDepth : List Json → Nat
  | [] => 0
  | v :: rest => max v.depth (itemsDepth rest)

/-- The depth of the deepest field. -/
def fieldsDepth : List (String × Json) → Nat
  | [] => 0
  | (_, v) :: rest => max v.depth (fieldsDepth rest)

end

/-- There is no binary64 in a value. -/
def IsFloatFree (v : Json) : Prop := ∀ bits, .number (.real bits) ∉ v.parts

/-- Every object in a value has its fields in increasing order of their keys, each key once. -/
def IsKeyed (v : Json) : Prop := ∀ fields, .object fields ∈ v.parts → fields.Pairwise (·.1 < ·.1)

theorem mem_partsOfItems {w : Json} {vs : List Json} :
    w ∈ partsOfItems vs ↔ ∃ v ∈ vs, w ∈ v.parts := by
  induction vs with
  | nil => simp [partsOfItems]
  | cons v vs ih => simp [partsOfItems, ih]

theorem mem_partsOfFields {w : Json} {fields : List (String × Json)} :
    w ∈ partsOfFields fields ↔ ∃ f ∈ fields, w ∈ f.2.parts := by
  induction fields with
  | nil => simp [partsOfFields]
  | cons f fields ih =>
    obtain ⟨key, v⟩ := f
    simp [partsOfFields, ih]

mutual

/-- The fields of every object that is read are in increasing order of their keys. -/
theorem Means.isKeyed : ∀ {d : Document} {v : Json}, Means d v → v.IsKeyed
  | _, _, .null, _, hm => by cases List.mem_singleton.1 hm
  | _, _, .bool b, _, hm => by cases List.mem_singleton.1 hm
  | _, _, .whole _ _, _, hm => by cases List.mem_singleton.1 hm
  | _, _, .real _, _, hm => by cases List.mem_singleton.1 hm
  | _, _, .string _, _, hm => by cases List.mem_singleton.1 hm
  | _, _, .array items, fields, hm => by
    rcases List.mem_cons.1 hm with heq | hm
    · cases heq
    · obtain ⟨v, hv, hm⟩ := mem_partsOfItems.1 hm
      exact items.isKeyed v hv fields hm
  | _, _, .object fields sorted last, _, hm => by
    rcases List.mem_cons.1 hm with heq | hm
    · cases heq
      exact sorted
    · obtain ⟨f, hf, hm⟩ := mem_partsOfFields.1 hm
      have hgiven := (last f.1).symm.trans ((Dict.lookup_eq_some_iff sorted).2 hf)
      exact fields.isKeyed f (List.mem_reverse.1 (Dict.mem_of_lookup hgiven)) _ hm

theorem MeansItems.isKeyed : ∀ {ds : List Document} {vs : List Json}, MeansItems ds vs →
    ∀ v ∈ vs, v.IsKeyed
  | _, _, .nil, _, hv => by cases hv
  | _, _, .cons item items, v, hv => by
    rcases List.mem_cons.1 hv with rfl | hv
    · exact item.isKeyed
    · exact items.isKeyed v hv

theorem MeansFields.isKeyed : ∀ {fs : List (List TextUnit × Document)}
    {given : List (String × Json)}, MeansFields fs given → ∀ f ∈ given, f.2.IsKeyed
  | _, _, .nil, _, hf => by cases hf
  | _, _, .cons _ value fields, f, hf => by
    rcases List.mem_cons.1 hf with rfl | hf
    · exact value.isKeyed
    · exact fields.isKeyed f hf

end

/-! ## Written values -/

/-- A value is written as a document that means it and is as deep. -/
structure IsWritten (v : Json) (d : Document) : Prop where
  toDocument? : v.toDocument? = some d
  means : Means d v
  depth : d.depth = v.depth
  isWritable : d.IsWritable

mutual

theorem exists_isWritten : ∀ v : Json, v.IsFloatFree → v.IsKeyed → ∃ d, v.IsWritten d
  | .null, _, _ => ⟨.null, rfl, .null, rfl, by rintro _ ⟨⟩⟩
  | .bool b, _, _ => ⟨.bool b, rfl, .bool b, rfl, by rintro _ ⟨⟩⟩
  | .number (.whole n fits), _, _ => by
    refine ⟨_, rfl, .whole fits (Numeral.writes_ofInt n), rfl, fun m hm => ?_⟩
    rw [List.mem_singleton.1 hm]
    exact Numeral.isWritable_ofInt n
  | .number (.real bits), hfree, _ => absurd (List.mem_singleton_self _) (hfree bits)
  | .string s, _, _ => ⟨.text s, rfl, .string (text?_units s), rfl, by rintro _ ⟨⟩⟩
  | .array items, hfree, hkeyed => by
    obtain ⟨ds, hds, hmeans, hdepth, hnumerals⟩ := exists_areWritten items
      (fun bits hm => hfree bits (List.mem_cons_of_mem _ hm))
      (fun fields hm => hkeyed fields (List.mem_cons_of_mem _ hm))
    exact ⟨.array ds, by rw [toDocument?, hds, Option.map_some], .array hmeans,
      congrArg (· + 1) hdepth, hnumerals⟩
  | .object fields, hfree, hkeyed => by
    obtain ⟨fs, hfs, hmeans, hdepth, hnumerals⟩ := exists_fieldsWritten fields
      (fun bits hm => hfree bits (List.mem_cons_of_mem _ hm))
      (fun fields hm => hkeyed fields (List.mem_cons_of_mem _ hm))
    have hsorted := hkeyed fields List.mem_cons_self
    exact ⟨.object fs, by rw [toDocument?, hfs, Option.map_some],
      .object hmeans hsorted fun k => (Dict.lookup_reverse hsorted k).symm,
      congrArg (· + 1) hdepth, hnumerals⟩

theorem exists_areWritten : ∀ vs : List Json, (∀ bits, .number (.real bits) ∉ partsOfItems vs) →
    (∀ fields, .object fields ∈ partsOfItems vs → fields.Pairwise (·.1 < ·.1)) →
    ∃ ds, itemsToDocument? vs = some ds ∧ MeansItems ds vs ∧
      Document.itemsDepth ds = itemsDepth vs ∧ ∀ n ∈ numeralsOfItems ds, n.IsWritable
  | [], _, _ => ⟨[], rfl, .nil, rfl, by rintro _ ⟨⟩⟩
  | v :: vs, hfree, hkeyed => by
    obtain ⟨d, hd⟩ := exists_isWritten v (fun bits hm => hfree bits (List.mem_append_left _ hm))
      (fun fields hm => hkeyed fields (List.mem_append_left _ hm))
    obtain ⟨ds, hds, hmeans, hdepth, hnumerals⟩ := exists_areWritten vs
      (fun bits hm => hfree bits (List.mem_append_right _ hm))
      (fun fields hm => hkeyed fields (List.mem_append_right _ hm))
    refine ⟨d :: ds, ?_, .cons hd.means hmeans, ?_, fun n hn => ?_⟩
    · rw [itemsToDocument?, hd.toDocument?, Option.bind_some, hds, Option.map_some]
    · rw [Document.itemsDepth, itemsDepth, hd.depth, hdepth]
    · exact (List.mem_append.1 hn).elim (hd.isWritable n) (hnumerals n)

theorem exists_fieldsWritten : ∀ fields : List (String × Json),
    (∀ bits, .number (.real bits) ∉ partsOfFields fields) →
    (∀ fs, .object fs ∈ partsOfFields fields → fs.Pairwise (·.1 < ·.1)) →
    ∃ fs, fieldsToDocument? fields = some fs ∧ MeansFields fs fields ∧
      Document.fieldsDepth fs = fieldsDepth fields ∧ ∀ n ∈ numeralsOfFields fs, n.IsWritable
  | [], _, _ => ⟨[], rfl, .nil, rfl, by rintro _ ⟨⟩⟩
  | (key, v) :: fields, hfree, hkeyed => by
    obtain ⟨d, hd⟩ := exists_isWritten v (fun bits hm => hfree bits (List.mem_append_left _ hm))
      (fun fs hm => hkeyed fs (List.mem_append_left _ hm))
    obtain ⟨fs, hfs, hmeans, hdepth, hnumerals⟩ := exists_fieldsWritten fields
      (fun bits hm => hfree bits (List.mem_append_right _ hm))
      (fun fs hm => hkeyed fs (List.mem_append_right _ hm))
    refine ⟨(units key, d) :: fs, ?_, .cons (text?_units key) hd.means hmeans, ?_, fun n hn => ?_⟩
    · rw [fieldsToDocument?, hd.toDocument?, Option.bind_some, hfs, Option.map_some]
    · rw [Document.fieldsDepth, fieldsDepth, hd.depth, hdepth]
    · exact (List.mem_append.1 hn).elim (hd.isWritable n) (hnumerals n)

end

/-- A value without binary64 numbers reads back from its compact text. -/
theorem exists_ofText?_compact {v : Json} (hfree : v.IsFloatFree) (hkeyed : v.IsKeyed)
    (hdepth : v.depth ≤ maxDepth) :
    ∃ d, v.toDocument? = some d ∧ ofText? (String.ofList d.compact) = some v := by
  obtain ⟨d, hd⟩ := exists_isWritten v hfree hkeyed
  refine ⟨d, hd.toDocument?, ofText?_eq_some_iff.2 ⟨d, ?_, hd.depth.symm ▸ hdepth, hd.means⟩⟩
  rw [String.toList_ofList]
  exact d.spelledBy_compact hd.isWritable

end CourseBlueprint.Json
