import CourseBlueprint.Dict
import CourseBlueprint.Json.Value
import CourseBlueprint.Proofs.Json.Reader

/-!
# What a JSON text says

`Means d v` is the value of a document part by part: an integer that 64 bits can hold is itself
(`Numeral.Writes`), and an object has the keys of its fields, each once and in increasing order, and
under each key the value of the last field with it. A document may be nested too deep for a value, so a
text says a value if it is a document of at most 127 levels that means it (`Json.Says`). The reader of
values finds exactly that (`Json.ofText?_eq_some_iff`).
-/

namespace CourseBlueprint

/-! ## Fields -/

namespace Dict

variable {α : Type}

theorem lookup_append (k : String) (es fs : List (String × α)) :
    lookup k (es ++ fs) = (lookup k es).or (lookup k fs) := by
  induction es with
  | nil => rfl
  | cons e es ih =>
    rw [List.cons_append, lookup, lookup, ih]
    split <;> rfl

theorem mem_of_lookup {es : List (String × α)} {k : String} {a : α} (h : lookup k es = some a) :
    (k, a) ∈ es := by
  induction es with
  | nil => cases h
  | cons e es ih =>
    rw [lookup] at h
    split at h
    · next hk =>
      cases h
      rw [hk]
      exact List.mem_cons_self
    · exact List.mem_cons_of_mem _ (ih h)

/-- Of the entries that are put in one after another, the last one of a key counts. -/
theorem lookup_foldl_putSorted (k : String) (es acc : List (String × α)) :
    lookup k (es.foldl (fun acc e => putSorted e.1 e.2 acc) acc) =
      (lookup k es.reverse).or (lookup k acc) := by
  induction es generalizing acc with
  | nil => rfl
  | cons e es ih =>
    rw [List.foldl_cons, ih, lookup_putSorted, List.reverse_cons, lookup_append, Option.or_assoc]
    congr 1
    rw [lookup]
    split <;> rfl

theorem sorted_foldl_putSorted (es : List (String × α)) {acc : List (String × α)}
    (h : acc.Pairwise (·.1 < ·.1)) :
    (es.foldl (fun acc e => putSorted e.1 e.2 acc) acc).Pairwise (·.1 < ·.1) := by
  induction es generalizing acc with
  | nil => exact h
  | cons e es ih => exact ih (sorted_putSorted h)

/-- Entries in increasing order of their keys are the same from their end. -/
theorem lookup_reverse {es : List (String × α)} (h : es.Pairwise (·.1 < ·.1)) (k : String) :
    lookup k es.reverse = lookup k es := by
  induction es with
  | nil => rfl
  | cons e es ih =>
    obtain ⟨he, hes⟩ := List.pairwise_cons.1 h
    rw [List.reverse_cons, lookup_append, ih hes, lookup, lookup, lookup]
    split
    · next hk =>
      have hnone : lookup k es = none := by
        refine Option.eq_none_iff_forall_ne_some.2 fun v hv => ?_
        have hlt := he _ ((lookup_eq_some_iff hes).1 hv)
        exact String.lt_irrefl k (hk ▸ hlt)
      rw [hnone, Option.none_or]
    · exact Option.or_none

end Dict

namespace Json

theorem putField_eq (key : String) (v : Json) (fields : List (String × Json)) :
    putField key v fields = Dict.putSorted key v fields := by
  induction fields with
  | nil => rfl
  | cons f fields ih => rw [putField, Dict.putSorted, ih]

/-! ## Numbers -/

/-- A numeral without fraction and exponent writes an integer, unless it is zero with a minus. -/
structure Numeral.Writes (n : Numeral) (m : Int) : Prop where
  fraction : n.fraction = []
  exponent : n.exponent = none
  value : m = if n.negative then -(Number.digitsValue n.whole : Int) else Number.digitsValue n.whole
  sign : n.negative = true → m ≠ 0

theorem Number.ofFloatNumeral_ne_whole (n : Numeral) (m : Int) (fits : Fits m) :
    Number.ofFloatNumeral n ≠ some (.whole m fits) := by
  have hmap (x : Option Float) : x.map (Number.realOf n.negative) ≠ some (.whole m fits) := by
    intro h
    obtain ⟨_, -, heq⟩ := Option.map_eq_some_iff.1 h
    cases heq
  rw [Number.ofFloatNumeral]
  dsimp only
  split
  · exact hmap _
  · split
    · split
      · rintro ⟨⟩
      · intro h
        cases Option.some.inj h
    · exact hmap _

/-- The integers that 64 bits can hold are read from the numerals that write them. -/
theorem Number.ofNumeral?_eq_whole_iff {n : Numeral} {m : Int} {fits : Fits m} :
    Number.ofNumeral? n = some (.whole m fits) ↔ n.Writes m := by
  have hfloat := Number.ofFloatNumeral_ne_whole n m fits
  rw [Number.ofNumeral?]
  constructor
  · intro h
    split at h
    · next hplain =>
      dsimp only at h
      split at h
      · next hneg =>
        split at h
        · cases Option.some.inj h
        · next hzero =>
          split at h
          · cases h
            refine ⟨hplain.1, hplain.2, (if_pos hneg).symm, fun _ => ?_⟩
            omega
          · exact absurd h hfloat
      · next hpos =>
        split at h
        · cases h
          exact ⟨hplain.1, hplain.2, (if_neg hpos).symm, fun hneg => absurd hneg hpos⟩
        · exact absurd h hfloat
    · exact absurd h hfloat
  · rintro ⟨hfraction, hexponent, hvalue, hsign⟩
    rw [if_pos ⟨hfraction, hexponent⟩]
    dsimp only
    split
    · next hneg =>
      rw [if_pos hneg] at hvalue
      subst hvalue
      have hzero : Number.digitsValue n.whole ≠ 0 := fun heq => hsign hneg (by rw [heq]; rfl)
      rw [if_neg hzero, dif_pos fits]
    · next hpos =>
      rw [if_neg hpos] at hvalue
      subst hvalue
      rw [dif_pos fits]

/-! ## Depth -/

mutual

/-- How many arrays and objects a document has in each other. -/
def Document.depth : Document → Nat
  | .array items => Document.itemsDepth items + 1
  | .object fields => Document.fieldsDepth fields + 1
  | _ => 0

/-- The depth of the deepest item. -/
def Document.itemsDepth : List Document → Nat
  | [] => 0
  | d :: rest => max d.depth (Document.itemsDepth rest)

/-- The depth of the deepest field. -/
def Document.fieldsDepth : List (List TextUnit × Document) → Nat
  | [] => 0
  | (_, d) :: rest => max d.depth (Document.fieldsDepth rest)

end

/-! ## Meaning -/

mutual

/-- The value of a document, however deep it is. -/
inductive Means : Document → Json → Prop
  | null : Means .null .null
  | bool (b : Bool) : Means (.bool b) (.bool b)
  | whole {n : Numeral} {m : Int} (fits : Fits m) (integer : n.Writes m) :
    Means (.number n) (.number (.whole m fits))
  | real {n : Numeral} {bits : UInt64} (nearest : Number.ofNumeral? n = some (.real bits)) :
    Means (.number n) (.number (.real bits))
  | string {us : List TextUnit} {s : String} (text : text? us = some s) :
    Means (.string us) (.string s)
  | array {ds : List Document} {vs : List Json} (items : MeansItems ds vs) :
    Means (.array ds) (.array vs)
  | object {fs : List (List TextUnit × Document)} {given vs : List (String × Json)}
    (fields : MeansFields fs given) (sorted : vs.Pairwise (·.1 < ·.1))
    (last : ∀ k, Dict.lookup k vs = Dict.lookup k given.reverse) : Means (.object fs) (.object vs)

/-- The values of items. -/
inductive MeansItems : List Document → List Json → Prop
  | nil : MeansItems [] []
  | cons {d : Document} {v : Json} {ds : List Document} {vs : List Json} (item : Means d v)
    (items : MeansItems ds vs) : MeansItems (d :: ds) (v :: vs)

/-- The keys and values of fields, as they are given. -/
inductive MeansFields : List (List TextUnit × Document) → List (String × Json) → Prop
  | nil : MeansFields [] []
  | cons {key : List TextUnit} {k : String} {d : Document} {v : Json}
    {fs : List (List TextUnit × Document)} {given : List (String × Json)} (name : text? key = some k)
    (value : Means d v) (fields : MeansFields fs given) :
    MeansFields ((key, d) :: fs) ((k, v) :: given)

end

/-- A text is a document that is not nested too deep, and this is its value. -/
def Says (text : List Char) (v : Json) : Prop :=
  ∃ d : Document, d.SpelledBy text ∧ d.depth ≤ maxDepth ∧ Means d v

/-- An object holds, in increasing order of the keys, the last field of each key. -/
theorem object_eq_iff {given vs : List (String × Json)} :
    given.foldl (fun acc f => Dict.putSorted f.1 f.2 acc) [] = vs ↔
      vs.Pairwise (·.1 < ·.1) ∧ ∀ k, Dict.lookup k vs = Dict.lookup k given.reverse := by
  have hlookup (k : String) : Dict.lookup k
      (given.foldl (fun acc f => Dict.putSorted f.1 f.2 acc) []) = Dict.lookup k given.reverse := by
    rw [Dict.lookup_foldl_putSorted, Dict.lookup, Option.or_none]
  have hsorted := Dict.sorted_foldl_putSorted given
    (List.Pairwise.nil : ([] : List (String × Json)).Pairwise (·.1 < ·.1))
  constructor
  · rintro rfl
    exact ⟨hsorted, hlookup⟩
  · rintro ⟨hvs, hlast⟩
    exact congrArg Dict.entries (Dict.eq_of_get?_eq (d := ⟨_, hsorted⟩) (e := ⟨vs, hvs⟩) fun k =>
      (hlookup k).trans (hlast k).symm)

/-! ## The reader of values -/

mutual

/-- The value that is read is meant. -/
theorem means_of_ofDocument? : ∀ (d : Document) {depth : Nat} {v : Json},
    ofDocument? depth d = some v → d.depth ≤ depth ∧ Means d v
  | .null, _, _, h => by
    cases h
    exact ⟨Nat.zero_le _, .null⟩
  | .bool b, _, _, h => by
    cases h
    exact ⟨Nat.zero_le _, .bool b⟩
  | .number n, _, _, h => by
    obtain ⟨m, hm, rfl⟩ := Option.map_eq_some_iff.1 h
    cases m with
    | whole m fits => exact ⟨Nat.zero_le _, .whole fits (Number.ofNumeral?_eq_whole_iff.1 hm)⟩
    | real bits => exact ⟨Nat.zero_le _, .real hm⟩
  | .string us, _, _, h => by
    obtain ⟨s, hs, rfl⟩ := Option.map_eq_some_iff.1 h
    exact ⟨Nat.zero_le _, .string hs⟩
  | .array ds, 0, _, h => by cases h
  | .array ds, depth + 1, _, h => by
    obtain ⟨vs, hvs, rfl⟩ := Option.map_eq_some_iff.1 h
    obtain ⟨hdepth, hmeans⟩ := meansItems_of_ofItems? ds hvs
    exact ⟨Nat.succ_le_succ hdepth, .array hmeans⟩
  | .object fs, 0, _, h => by cases h
  | .object fs, depth + 1, _, h => by
    obtain ⟨vs, hvs, rfl⟩ := Option.map_eq_some_iff.1 h
    obtain ⟨hdepth, given, hmeans, heq⟩ := meansFields_of_ofFields? fs hvs
    obtain ⟨hsorted, hlast⟩ := object_eq_iff.1 heq
    exact ⟨Nat.succ_le_succ hdepth, .object hmeans hsorted hlast⟩

theorem meansItems_of_ofItems? : ∀ (ds : List Document) {depth : Nat} {vs : List Json},
    ofItems? depth ds = some vs → Document.itemsDepth ds ≤ depth ∧ MeansItems ds vs
  | [], _, _, h => by
    cases h
    exact ⟨Nat.zero_le _, .nil⟩
  | d :: ds, _, _, h => by
    obtain ⟨v, hv, h⟩ := Option.bind_eq_some_iff.1 h
    obtain ⟨vs, hvs, rfl⟩ := Option.map_eq_some_iff.1 h
    obtain ⟨hdepth, hmeans⟩ := means_of_ofDocument? d hv
    obtain ⟨hdepths, hitems⟩ := meansItems_of_ofItems? ds hvs
    exact ⟨Nat.max_le.2 ⟨hdepth, hdepths⟩, .cons hmeans hitems⟩

theorem meansFields_of_ofFields? : ∀ (fs : List (List TextUnit × Document)) {depth : Nat}
    {acc vs : List (String × Json)}, ofFields? depth acc fs = some vs →
    Document.fieldsDepth fs ≤ depth ∧ ∃ given, MeansFields fs given ∧
      given.foldl (fun acc f => Dict.putSorted f.1 f.2 acc) acc = vs
  | [], _, _, _, h => by
    cases h
    exact ⟨Nat.zero_le _, [], .nil, rfl⟩
  | (key, d) :: fs, _, acc, _, h => by
    obtain ⟨k, hk, h⟩ := Option.bind_eq_some_iff.1 h
    obtain ⟨v, hv, h⟩ := Option.bind_eq_some_iff.1 h
    obtain ⟨hdepth, hmeans⟩ := means_of_ofDocument? d hv
    obtain ⟨hdepths, given, hfields, heq⟩ := meansFields_of_ofFields? fs h
    rw [putField_eq] at heq
    exact ⟨Nat.max_le.2 ⟨hdepth, hdepths⟩, (k, v) :: given, .cons hk hmeans hfields, heq⟩

end

mutual

/-- The value that is meant is read, down to the depth of the document. -/
theorem ofDocument?_of_means : ∀ {d : Document} {v : Json}, Means d v →
    ∀ {depth : Nat}, d.depth ≤ depth → ofDocument? depth d = some v
  | _, _, .null, _, _ => rfl
  | _, _, .bool b, _, _ => rfl
  | _, _, .whole fits integer, _, _ => by
    rw [ofDocument?, Number.ofNumeral?_eq_whole_iff.2 integer, Option.map_some]
  | _, _, .real nearest, _, _ => by rw [ofDocument?, nearest, Option.map_some]
  | _, _, .string text, _, _ => by rw [ofDocument?, text, Option.map_some]
  | _, _, .array items, 0, h => by cases h
  | _, _, .array items, depth + 1, h => by
    rw [ofDocument?, ofItems?_of_meansItems items (Nat.le_of_succ_le_succ h), Option.map_some]
  | _, _, .object fields sorted last, 0, h => by cases h
  | _, _, .object fields sorted last, depth + 1, h => by
    rw [ofDocument?, ofFields?_of_meansFields fields [] (Nat.le_of_succ_le_succ h),
      object_eq_iff.2 ⟨sorted, last⟩, Option.map_some]

theorem ofItems?_of_meansItems : ∀ {ds : List Document} {vs : List Json}, MeansItems ds vs →
    ∀ {depth : Nat}, Document.itemsDepth ds ≤ depth → ofItems? depth ds = some vs
  | _, _, .nil, _, _ => rfl
  | _, _, .cons item items, _, h => by
    obtain ⟨hdepth, hdepths⟩ := Nat.max_le.1 h
    rw [ofItems?, ofDocument?_of_means item hdepth, Option.bind_some,
      ofItems?_of_meansItems items hdepths, Option.map_some]

theorem ofFields?_of_meansFields : ∀ {fs : List (List TextUnit × Document)}
    {given : List (String × Json)}, MeansFields fs given → ∀ (acc : List (String × Json))
    {depth : Nat}, Document.fieldsDepth fs ≤ depth → ofFields? depth acc fs =
      some (given.foldl (fun acc f => Dict.putSorted f.1 f.2 acc) acc)
  | _, _, .nil, _, _, _ => rfl
  | _, _, .cons name value fields, acc, _, h => by
    obtain ⟨hdepth, hdepths⟩ := Nat.max_le.1 h
    rw [ofFields?, name, Option.bind_some, ofDocument?_of_means value hdepth, Option.bind_some,
      ofFields?_of_meansFields fields _ hdepths, putField_eq, List.foldl_cons]

end

/-- The reader of values reads from a text what the text says, and nothing from other texts. -/
theorem ofText?_eq_some_iff {text : String} {v : Json} :
    ofText? text = some v ↔ Says text.toList v := by
  rw [ofText?, Option.bind_eq_some_iff]
  constructor
  · rintro ⟨d, hd, hv⟩
    obtain ⟨hdepth, hmeans⟩ := means_of_ofDocument? d hv
    exact ⟨d, Document.ofChars?_eq_some_iff.1 hd, hdepth, hmeans⟩
  · rintro ⟨d, hd, hdepth, hmeans⟩
    exact ⟨d, Document.ofChars?_eq_some_iff.2 hd, ofDocument?_of_means hmeans hdepth⟩

end Json

end CourseBlueprint
