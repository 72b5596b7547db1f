import CourseBlueprint.Assignment
import CourseBlueprint.Proofs.Json.RoundTrip

/-!
# What an assignment gives to a column

The first `=` of a text divides it. In front of it stands the column with blanks around it; behind it
stands a JSON text, or any other text, which then stands for itself (`Assignment.StandsFor`).
`Assignment.ofText_exact` says when a text is refused, what every other text gives, and that a column
and the compact text of a value give this column this value.
-/

namespace CourseBlueprint

namespace Assignment

open Text (IsTrimmed Trims isBlank)

/-- The texts before and after the first `=`. -/
structure Divides (input : String) (before after : List Char) : Prop where
  toList_eq : input.toList = before ++ '=' :: after
  first : '=' ∉ before

/-- The value that a text stands for: what it says as JSON, and any other text itself. -/
inductive StandsFor (text : List Char) : Json → Prop
  | json {v : Json} (said : Json.Says text v) : StandsFor text v
  | verbatim (other : ∀ v, ¬ Json.Says text v) : StandsFor text (.string (String.ofList text))

/-! ## Dividing -/

theorem split?_eq_some_iff_divides {input : String} {before after : List Char} :
    split? input.toList = some (before, after) ↔ Divides input before after :=
  split?_eq_some_iff.trans ⟨fun h => ⟨h.1, h.2⟩, fun h => ⟨h.1, h.2⟩⟩

theorem split?_eq_none_iff {cs : List Char} : split? cs = none ↔ '=' ∉ cs := by
  induction cs with
  | nil => simp [split?]
  | cons c cs ih =>
    rw [split?]
    split
    · next h => simp [h]
    · next h => simp [ih, Ne.symm h]

/-! ## Values -/

theorem valueOf_eq_iff {text : List Char} {v : Json} :
    valueOf (String.ofList text) = v ↔ StandsFor text v := by
  have hsaid {w : Json} : Json.ofText? (String.ofList text) = some w ↔ Json.Says text w := by
    rw [Json.ofText?_eq_some_iff, String.toList_ofList]
  rw [valueOf]
  cases htext : Json.ofText? (String.ofList text) with
  | none =>
    have hother (w : Json) : ¬ Json.Says text w := fun hw => by
      cases htext.symm.trans (hsaid.2 hw)
    constructor
    · rintro rfl
      exact .verbatim hother
    · rintro (hv | -)
      · exact absurd hv (hother v)
      · rfl
  | some w =>
    have hw : Json.Says text w := hsaid.1 htext
    constructor
    · rintro rfl
      exact .json hw
    · rintro (hv | hother)
      · exact Option.some.inj (htext.symm.trans (hsaid.2 hv))
      · exact absurd hw (hother w)

/-! ## Assignments -/

section
variable {input : String} {before after : List Char}

theorem ofText_of_not_mem (h : '=' ∉ input.toList) :
    ofText input = .error (.noAssignmentSign input) := by
  rw [ofText, split?_eq_none_iff.2 h]

theorem ofText_of_divides (h : Divides input before after) :
    ofText input = if (Text.trim before).isEmpty then .error (.noColumnName input)
      else .ok (String.ofList (Text.trim before), valueOf (String.ofList after)) := by
  rw [ofText, split?_eq_some_iff_divides.2 h]

/-- A text is divided, or there is no `=` in it. -/
theorem divides_or_not_mem (input : String) :
    '=' ∉ input.toList ∨ ∃ before after, Divides input before after := by
  cases h : split? input.toList with
  | none => exact .inl (split?_eq_none_iff.1 h)
  | some parts => exact .inr ⟨parts.1, parts.2, split?_eq_some_iff_divides.1 h⟩

end

/-- A text is refused if it has no `=`, or only blanks in front of the first one. -/
theorem ofText_eq_error_iff {input : String} {e : Failure} :
    ofText input = .error e ↔ ('=' ∉ input.toList ∧ e = .noAssignmentSign input) ∨
      ∃ before after, Divides input before after ∧ (∀ c ∈ before, isBlank c = true) ∧
        e = .noColumnName input := by
  constructor
  · intro h
    rcases divides_or_not_mem input with hnone | ⟨before, after, hdivides⟩
    · rw [ofText_of_not_mem hnone] at h
      cases h
      exact .inl ⟨hnone, rfl⟩
    · rw [ofText_of_divides hdivides] at h
      split at h
      · next hempty =>
        cases h
        exact .inr ⟨before, after, hdivides,
          Text.trim_eq_nil_iff.1 (List.isEmpty_iff.1 hempty), rfl⟩
      · cases h
  · rintro (⟨hnone, rfl⟩ | ⟨before, after, hdivides, hblank, rfl⟩)
    · exact ofText_of_not_mem hnone
    · rw [ofText_of_divides hdivides, if_pos (List.isEmpty_iff.2 (Text.trim_eq_nil_iff.2 hblank))]

/-- Any other text gives the trimmed column what the text behind the first `=` stands for. -/
theorem ofText_eq_ok_iff {input column : String} {v : Json} :
    ofText input = .ok (column, v) ↔ ∃ before after, Divides input before after ∧
      Trims before column.toList ∧ column ≠ "" ∧ StandsFor after v := by
  constructor
  · intro h
    rcases divides_or_not_mem input with hnone | ⟨before, after, hdivides⟩
    · rw [ofText_of_not_mem hnone] at h
      cases h
    · rw [ofText_of_divides hdivides] at h
      split at h
      · cases h
      · next hne =>
        cases h
        refine ⟨before, after, hdivides, ?_, fun hcolumn => ?_, valueOf_eq_iff.1 rfl⟩
        · rw [String.toList_ofList]
          exact Text.trim_eq_iff.1 rfl
        · have hnil := congrArg String.toList hcolumn
          rw [String.toList_ofList] at hnil
          exact hne (List.isEmpty_iff.2 hnil)
  · rintro ⟨before, after, hdivides, htrims, hne, hv⟩
    have htrim := Text.trim_eq_iff.2 htrims
    rw [ofText_of_divides hdivides, valueOf_eq_iff.2 hv, htrim, if_neg, String.ofList_toList]
    exact fun hempty => hne (String.toList_eq_nil_iff.1 (List.isEmpty_iff.1 hempty))

/-- A column and the compact text of a value give the column the value. -/
theorem exists_ofText_compact {column : String} {v : Json} (hne : column ≠ "")
    (htrimmed : IsTrimmed column.toList) (hsign : '=' ∉ column.toList) (hfree : v.IsFloatFree)
    (hkeyed : v.IsKeyed) (hdepth : v.depth ≤ Json.maxDepth) :
    ∃ d, v.toDocument? = some d ∧
      ofText (column ++ "=" ++ String.ofList d.compact) = .ok (column, v) := by
  obtain ⟨d, hd, htext⟩ := Json.exists_ofText?_compact hfree hkeyed hdepth
  rw [Json.ofText?_eq_some_iff, String.toList_ofList] at htext
  have htrims := Text.trim_eq_iff.1 (Text.isTrimmed_iff.1 htrimmed)
  refine ⟨d, hd, ofText_eq_ok_iff.2 ⟨column.toList, d.compact, ⟨?_, hsign⟩, htrims, hne, .json htext⟩⟩
  simp only [String.toList_append, String.toList_ofList, List.append_assoc]
  rfl

end Assignment

namespace Sample

/-- A value with escapes, the limits of 64 bits and objects in an array. -/
def latePolicy : Json :=
  .object [("limits", .array [.number (.whole (-9223372036854775808) (by decide)),
      .number (.whole 18446744073709551615 (by decide)), .null]),
    ("note", .string "a \"b\" = \\\n"),
    ("rules", .array [.object [("closed", .bool true), ("é", .object [])]])]

/-- A column with a blank in it, and the compact text of the value. -/
def latePolicyText : String :=
  "late policy=\x7b\"limits\":[-9223372036854775808,18446744073709551615,null]," ++
    "\"note\":\"a \\\"b\\\" = \\\\\\n\",\"rules\":[\x7b\"closed\":true,\"é\":\x7b\x7d\x7d]\x7d"

end Sample

end CourseBlueprint
