import CourseBlueprint.Failure
import CourseBlueprint.Json.Value
import CourseBlueprint.Text.Blank

/-!
# Assignments

An assignment `column=value` gives a column a value: the part after the first `=` as JSON if it is
JSON, and otherwise as the text that it is.
-/

namespace CourseBlueprint

/-- A column and the value it is given. -/
abbrev Assignment := String × Json

namespace Assignment

/-- The parts of a text before and after its first `=`. -/
def split? : List Char → Option (List Char × List Char)
  | [] => none
  | c :: rest =>
    if c = '=' then some ([], rest)
    else (split? rest).map fun (column, value) => (c :: column, value)

/-- The value that a text stands for. -/
def valueOf (text : String) : Json := (Json.ofText? text).getD (.string text)

/-- Reads an assignment. -/
def ofText (input : String) : Result Assignment :=
  match split? input.toList with
  | none => .error (.noAssignmentSign input)
  | some (before, after) =>
    let column := Text.trim before
    if column.isEmpty then .error (.noColumnName input)
    else .ok (String.ofList column, valueOf (String.ofList after))

/-- Reads several assignments, up to the first that is none. -/
def ofTexts (inputs : List String) : Result (List Assignment) := inputs.mapM ofText

/-! ## Lemmas -/

/-- The first `=` divides the text. -/
theorem split?_eq_some_iff {cs before after : List Char} :
    split? cs = some (before, after) ↔ cs = before ++ '=' :: after ∧ '=' ∉ before := by
  induction cs generalizing before with
  | nil => simp [split?]
  | cons c rest ih =>
    by_cases h : c = '='
    · subst h
      constructor
      · intro hs
        simp only [split?, if_pos, Option.some.injEq, Prod.mk.injEq] at hs
        obtain ⟨rfl, rfl⟩ := hs
        exact ⟨rfl, List.not_mem_nil⟩
      · rintro ⟨heq, hn⟩
        cases before with
        | nil => simpa [split?] using heq
        | cons b bs =>
          simp only [List.cons_append, List.cons.injEq] at heq
          exact absurd (by simp [← heq.1]) hn
    · simp only [split?, if_neg h, Option.map_eq_some_iff, Prod.mk.injEq, Prod.exists]
      constructor
      · rintro ⟨b, a, hs, rfl, rfl⟩
        obtain ⟨rfl, hn⟩ := ih.1 hs
        exact ⟨rfl, by simp [hn, Ne.symm h]⟩
      · rintro ⟨heq, hn⟩
        cases before with
        | nil => simp at heq; exact absurd heq.1 h
        | cons b bs =>
          simp only [List.cons_append, List.cons.injEq] at heq
          obtain ⟨rfl, rfl⟩ := heq
          exact ⟨bs, after, ih.2 ⟨rfl, fun hm => hn (List.mem_cons_of_mem _ hm)⟩, rfl, rfl⟩

end Assignment

end CourseBlueprint
