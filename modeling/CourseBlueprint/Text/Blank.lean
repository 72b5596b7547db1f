/-!
# Blank characters

The characters with the property White_Space, and the text without them at its ends. Trimming takes all
of them away there, and nothing else (`trim_eq_iff`).
-/

namespace CourseBlueprint.Text

/-- The first and last character of every run of blanks. -/
def blankRanges : List (Nat × Nat) :=
  [(0x9, 0xd), (0x20, 0x20), (0x85, 0x85), (0xa0, 0xa0), (0x1680, 0x1680), (0x2000, 0x200a),
   (0x2028, 0x2029), (0x202f, 0x202f), (0x205f, 0x205f), (0x3000, 0x3000)]

/-- Whether a character is blank. -/
def isBlank (c : Char) : Bool :=
  blankRanges.any fun (lo, hi) => lo ≤ c.toNat && c.toNat ≤ hi

/-- The text from its first character that is not blank. -/
def trimLeft (cs : List Char) : List Char := cs.dropWhile isBlank

/-- The text up to its last character that is not blank. -/
def trimRight (cs : List Char) : List Char := (cs.reverse.dropWhile isBlank).reverse

/-- The text without the blanks at both ends. -/
def trim (cs : List Char) : List Char := trimRight (trimLeft cs)

/-! ## Trimmed texts -/

/-- There is no blank at either end of a text. -/
structure IsTrimmed (cs : List Char) : Prop where
  first : ∀ c ∈ cs.head?, isBlank c = false
  last : ∀ c ∈ cs.getLast?, isBlank c = false

/-- A text is another one with blanks around it, which has none at its own ends. -/
structure Trims (cs trimmed : List Char) : Prop where
  around : ∃ left right, cs = left ++ (trimmed ++ right) ∧ (∀ c ∈ left, isBlank c = true) ∧
    ∀ c ∈ right, isBlank c = true
  isTrimmed : IsTrimmed trimmed

/-! ## Lemmas -/

theorem trimLeft_append {left : List Char} (h : ∀ c ∈ left, isBlank c = true) (cs : List Char) :
    trimLeft (left ++ cs) = trimLeft cs := by
  induction left with
  | nil => rfl
  | cons c left ih =>
    have hc : isBlank c = true := h c List.mem_cons_self
    rw [List.cons_append, trimLeft, List.dropWhile_cons_of_pos hc]
    exact ih fun c hc => h c (List.mem_cons_of_mem _ hc)

theorem trimLeft_of_not_blank {c : Char} {cs : List Char} (h : isBlank c = false) :
    trimLeft (c :: cs) = c :: cs := by simp [trimLeft, h]

theorem trimLeft_of_head {cs : List Char} (h : ∀ c ∈ cs.head?, isBlank c = false) :
    trimLeft cs = cs := by
  cases cs with
  | nil => rfl
  | cons c cs => exact trimLeft_of_not_blank (h c rfl)

theorem head_trimLeft (cs : List Char) : ∀ c ∈ (trimLeft cs).head?, isBlank c = false := by
  induction cs with
  | nil => rintro _ ⟨⟩
  | cons c cs ih =>
    cases hc : isBlank c with
    | true => rwa [trimLeft, List.dropWhile_cons_of_pos hc]
    | false =>
      rw [trimLeft_of_not_blank hc]
      rintro _ ⟨⟩
      exact hc

/-- What is cut off from the left is blank. -/
theorem exists_trimLeft (cs : List Char) :
    ∃ left, cs = left ++ trimLeft cs ∧ ∀ c ∈ left, isBlank c = true :=
  ⟨cs.takeWhile isBlank, List.takeWhile_append_dropWhile.symm, List.all_eq_true.1 List.all_takeWhile⟩

theorem trimRight_eq (cs : List Char) : trimRight cs = (trimLeft cs.reverse).reverse := rfl

/-- Trimming cuts off the blanks at both ends, and nothing else. -/
theorem trim_eq_iff {cs trimmed : List Char} : trim cs = trimmed ↔ Trims cs trimmed := by
  constructor
  · rintro rfl
    obtain ⟨left, hleft, hblank⟩ := exists_trimLeft cs
    obtain ⟨right, hright, hblank'⟩ := exists_trimLeft (trimLeft cs).reverse
    have hsplit : trimLeft cs = trim cs ++ right.reverse := by
      rw [trim, trimRight_eq, ← List.reverse_append, ← hright, List.reverse_reverse]
    refine ⟨⟨left, right.reverse, hsplit ▸ hleft, hblank, fun c hc => ?_⟩, fun c hc => ?_,
      fun c hc => ?_⟩
    · exact hblank' c (List.mem_reverse.1 hc)
    · refine head_trimLeft cs c ?_
      rw [hsplit, List.head?_append, hc]
      rfl
    · refine head_trimLeft (trimLeft cs).reverse c ?_
      rwa [trim, trimRight_eq, List.getLast?_reverse] at hc
  · rintro ⟨⟨left, right, rfl, hleft, hright⟩, hfirst, hlast⟩
    rw [trim, trimLeft_append hleft]
    cases trimmed with
    | nil =>
      have hnil := trimLeft_append hright []
      rw [List.append_nil] at hnil
      rw [List.nil_append, hnil]
      rfl
    | cons c cs =>
      have hblank : ∀ c ∈ right.reverse, isBlank c = true :=
        fun c hc => hright c (List.mem_reverse.1 hc)
      rw [trimLeft_of_head (by rintro _ ⟨⟩; exact hfirst c rfl), trimRight_eq, List.reverse_append,
        trimLeft_append hblank, trimLeft_of_head (by rwa [List.head?_reverse]), List.reverse_reverse]

theorem isTrimmed_iff {cs : List Char} : IsTrimmed cs ↔ trim cs = cs := by
  rw [trim_eq_iff]
  exact ⟨fun h => ⟨⟨[], [], (List.append_nil cs).symm, by rintro _ ⟨⟩, by rintro _ ⟨⟩⟩, h⟩,
    Trims.isTrimmed⟩

theorem trim_eq_nil_iff {cs : List Char} : trim cs = [] ↔ ∀ c ∈ cs, isBlank c = true := by
  rw [trim_eq_iff]
  constructor
  · rintro ⟨⟨left, right, rfl, hleft, hright⟩, -⟩ c hc
    exact (List.mem_append.1 hc).elim (hleft c) (hright c)
  · intro h
    exact ⟨⟨cs, [], (List.append_nil cs).symm, h, by rintro _ ⟨⟩⟩, by rintro _ ⟨⟩, by rintro _ ⟨⟩⟩

end CourseBlueprint.Text
