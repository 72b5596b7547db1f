import CourseBlueprint.Json.Reader

/-!
# The grammar of JSON texts

The relations below say what a text starts with and which text is left after it, so `Spells cs d rest`
stands for a spelling of the document `d` with `rest` behind it. They do not say how a text is read: a
numeral may end before a digit, and blanks may be left over. `Document.SpelledBy` is for a text that is
a document as a whole.
-/

namespace CourseBlueprint.Json

/-! ## Texts -/

/-- The text behind some of the spaces that a text starts with. -/
inductive Blanks : List Char → List Char → Prop
  | none (cs : List Char) : Blanks cs cs
  | more {c : Char} {cs rest : List Char} (space : isSpace c = true) (blanks : Blanks cs rest) :
    Blanks (c :: cs) rest

/-- Digits without a needless zero in front. -/
inductive IsWhole : List Digit → Prop
  | zero : IsWhole [0]
  | digits {d : Digit} (hd : d ≠ 0) (ds : List Digit) : IsWhole (d :: ds)

/-- A fraction is absent, or a point and at least one digit. -/
inductive SpellsFraction : List Char → List Digit → List Char → Prop
  | absent (rest : List Char) : SpellsFraction rest [] rest
  | digits (d : Digit) (ds : List Digit) (rest : List Char) :
    SpellsFraction ('.' :: ((d :: ds).map digitChar ++ rest)) (d :: ds) rest

/-- The sign of an exponent, and whether it is a minus. -/
inductive SpellsSign : List Char → Bool → List Char → Prop
  | absent (rest : List Char) : SpellsSign rest false rest
  | plus (rest : List Char) : SpellsSign ('+' :: rest) false rest
  | minus (rest : List Char) : SpellsSign ('-' :: rest) true rest

/-- An exponent is absent, or a letter, a sign and at least one digit. -/
inductive SpellsExponent : List Char → Option Exponent → List Char → Prop
  | absent (rest : List Char) : SpellsExponent rest none rest
  | digits {letter : Char} {cs rest : List Char} {negative : Bool} {d : Digit} {ds : List Digit}
    (hletter : letter = 'e' ∨ letter = 'E')
    (sign : SpellsSign cs negative ((d :: ds).map digitChar ++ rest)) :
    SpellsExponent (letter :: cs) (some ⟨negative, d :: ds⟩) rest

/-- A numeral: a minus if it is negative, and its three parts. -/
inductive SpellsNumeral : List Char → Numeral → List Char → Prop
  | parts {cs cs₁ rest : List Char} {whole fraction : List Digit} {exponent : Option Exponent}
    (negative : Bool) (hwhole : IsWhole whole) (hfraction : SpellsFraction cs fraction cs₁)
    (hexponent : SpellsExponent cs₁ exponent rest) :
    SpellsNumeral ((if negative then ['-'] else []) ++ (whole.map digitChar ++ cs))
      ⟨negative, whole, fraction, exponent⟩ rest

/-- The letters that may stand after a backslash, each with the character it names. -/
def letterEscapes : List (Char × Char) :=
  [('"', '"'), ('\\', '\\'), ('/', '/'), ('b', '\x08'), ('f', '\x0c'), ('n', '\n'), ('r', '\r'),
   ('t', '\t')]

/-- The units of a string up to its closing quote. -/
inductive SpellsUnits : List Char → List TextUnit → List Char → Prop
  | close (rest : List Char) : SpellsUnits ('"' :: rest) [] rest
  | plain {c : Char} {cs rest : List Char} {us : List TextUnit} (quote : c ≠ '"')
    (backslash : c ≠ '\\') (control : ¬ c.toNat < 0x20) (units : SpellsUnits cs us rest) :
    SpellsUnits (c :: cs) (.char c :: us) rest
  | letter {l c : Char} {cs rest : List Char} {us : List TextUnit} (escape : (l, c) ∈ letterEscapes)
    (units : SpellsUnits cs us rest) : SpellsUnits ('\\' :: l :: cs) (.char c :: us) rest
  | code {h₁ h₂ h₃ h₄ : Char} {code : Nat} {cs rest : List Char} {us : List TextUnit}
    (hex : Text.Hex.read? [h₁, h₂, h₃, h₄] = some code) (units : SpellsUnits cs us rest) :
    SpellsUnits ('\\' :: 'u' :: h₁ :: h₂ :: h₃ :: h₄ :: cs) (unitOf code :: us) rest

mutual

/-- A document, from its first character to its last. -/
inductive Spells : List Char → Document → List Char → Prop
  | null (rest : List Char) : Spells ('n' :: 'u' :: 'l' :: 'l' :: rest) .null rest
  | yes (rest : List Char) : Spells ('t' :: 'r' :: 'u' :: 'e' :: rest) (.bool true) rest
  | no (rest : List Char) : Spells ('f' :: 'a' :: 'l' :: 's' :: 'e' :: rest) (.bool false) rest
  | number {cs rest : List Char} {n : Numeral} (numeral : SpellsNumeral cs n rest) :
    Spells cs (.number n) rest
  | string {cs rest : List Char} {us : List TextUnit} (units : SpellsUnits cs us rest) :
    Spells ('"' :: cs) (.string us) rest
  | noItem {cs rest : List Char} (close : Blanks cs (']' :: rest)) :
    Spells ('[' :: cs) (.array []) rest
  | array {cs rest : List Char} {ds : List Document} (items : SpellsItems cs ds rest) :
    Spells ('[' :: cs) (.array ds) rest
  | noField {cs rest : List Char} (close : Blanks cs ('\x7d' :: rest)) :
    Spells ('\x7b' :: cs) (.object []) rest
  | object {cs rest : List Char} {fs : List (List TextUnit × Document)}
    (fields : SpellsFields cs fs rest) : Spells ('\x7b' :: cs) (.object fs) rest

/-- Items with commas between them, up to the closing bracket. -/
inductive SpellsItems : List Char → List Document → List Char → Prop
  | last {cs cs₁ cs₂ rest : List Char} {d : Document} (before : Blanks cs cs₁)
    (item : Spells cs₁ d cs₂) (after : Blanks cs₂ (']' :: rest)) : SpellsItems cs [d] rest
  | more {cs cs₁ cs₂ cs₃ rest : List Char} {d : Document} {ds : List Document}
    (before : Blanks cs cs₁) (item : Spells cs₁ d cs₂) (after : Blanks cs₂ (',' :: cs₃))
    (items : SpellsItems cs₃ ds rest) : SpellsItems cs (d :: ds) rest

/-- Fields with commas between them, up to the closing brace. -/
inductive SpellsFields : List Char → List (List TextUnit × Document) → List Char → Prop
  | last {cs cs₁ cs₂ rest : List Char} {f : List TextUnit × Document} (before : Blanks cs cs₁)
    (field : SpellsField cs₁ f cs₂) (after : Blanks cs₂ ('\x7d' :: rest)) : SpellsFields cs [f] rest
  | more {cs cs₁ cs₂ cs₃ rest : List Char} {f : List TextUnit × Document}
    {fs : List (List TextUnit × Document)} (before : Blanks cs cs₁) (field : SpellsField cs₁ f cs₂)
    (after : Blanks cs₂ (',' :: cs₃)) (fields : SpellsFields cs₃ fs rest) :
    SpellsFields cs (f :: fs) rest

/-- A string, a colon and a document. -/
inductive SpellsField : List Char → List TextUnit × Document → List Char → Prop
  | parts {cs cs₁ cs₂ cs₃ rest : List Char} {key : List TextUnit} {d : Document}
    (name : SpellsUnits cs key cs₁) (colon : Blanks cs₁ (':' :: cs₂)) (before : Blanks cs₂ cs₃)
    (value : Spells cs₃ d rest) : SpellsField ('"' :: cs) (key, d) rest

end

/-- A text is a document with blanks around it. -/
def Document.SpelledBy (d : Document) (cs : List Char) : Prop :=
  ∃ cs₁ cs₂, Blanks cs cs₁ ∧ Spells cs₁ d cs₂ ∧ Blanks cs₂ []

/-! ## Lengths -/

theorem Blanks.length_le {cs rest : List Char} (h : Blanks cs rest) : rest.length ≤ cs.length := by
  induction h with
  | none => exact Nat.le_refl _
  | more _ _ ih => exact Nat.le_succ_of_le ih

/-- A part between blanks, and the mark behind it. -/
theorem Blanks.length_around {cs cs₁ cs₂ rest : List Char} {c : Char} (before : Blanks cs cs₁)
    (part : cs₂.length < cs₁.length) (after : Blanks cs₂ (c :: rest)) :
    rest.length + 2 ≤ cs.length :=
  calc rest.length + 2
    _ ≤ cs₂.length + 1 := Nat.succ_le_succ after.length_le
    _ ≤ cs₁.length := part
    _ ≤ cs.length := before.length_le

theorem SpellsFraction.length_le {cs rest : List Char} {ds : List Digit}
    (h : SpellsFraction cs ds rest) : rest.length ≤ cs.length := by
  cases h with
  | absent => exact Nat.le_refl _
  | digits d ds =>
    rw [List.length_cons, List.length_append]
    omega

theorem SpellsExponent.length_le {cs rest : List Char} {e : Option Exponent}
    (h : SpellsExponent cs e rest) : rest.length ≤ cs.length := by
  cases h with
  | absent => exact Nat.le_refl _
  | digits _ sign => cases sign <;> simp only [List.length_cons, List.length_append] <;> omega

theorem SpellsNumeral.length_lt {cs rest : List Char} {n : Numeral}
    (h : SpellsNumeral cs n rest) : rest.length < cs.length := by
  cases h with
  | parts negative hwhole hfraction hexponent =>
    rename_i cs cs₁ whole fraction exponent
    have hlength : 0 < (whole.map digitChar).length := by
      cases hwhole <;> exact Nat.succ_pos _
    have hparts := Nat.le_trans hexponent.length_le hfraction.length_le
    simp only [List.length_append]
    omega

theorem SpellsUnits.length_lt {cs rest : List Char} {us : List TextUnit}
    (h : SpellsUnits cs us rest) : rest.length < cs.length := by
  induction h with
  | close => exact Nat.lt_succ_self _
  | plain _ _ _ _ ih => exact Nat.lt_succ_of_lt ih
  | letter _ _ ih => exact Nat.lt_succ_of_lt (Nat.lt_succ_of_lt ih)
  | code _ _ ih =>
    simp only [List.length_cons]
    omega

mutual

theorem Spells.length_lt : ∀ {cs rest : List Char} {d : Document}, Spells cs d rest →
    rest.length < cs.length
  | _, _, _, .null rest => by simp only [List.length_cons]; omega
  | _, _, _, .yes rest => by simp only [List.length_cons]; omega
  | _, _, _, .no rest => by simp only [List.length_cons]; omega
  | _, _, _, .number numeral => numeral.length_lt
  | _, _, _, .string units => Nat.lt_succ_of_lt units.length_lt
  | _, _, _, .noItem close => Nat.lt_succ_of_lt close.length_le
  | _, _, _, .array items => Nat.lt_succ_of_lt items.length_lt
  | _, _, _, .noField close => Nat.lt_succ_of_lt close.length_le
  | _, _, _, .object fields => Nat.lt_succ_of_lt fields.length_lt

theorem SpellsItems.length_lt : ∀ {cs rest : List Char} {ds : List Document},
    SpellsItems cs ds rest → rest.length < cs.length
  | _, _, _, .last before item after => by
    have hitem := before.length_around item.length_lt after
    omega
  | _, _, _, .more before item after items => by
    have hitem := before.length_around item.length_lt after
    have hitems := items.length_lt
    omega

theorem SpellsFields.length_lt : ∀ {cs rest : List Char} {fs : List (List TextUnit × Document)},
    SpellsFields cs fs rest → rest.length < cs.length
  | _, _, _, .last before field after => by
    have hfield := before.length_around field.length_lt after
    omega
  | _, _, _, .more before field after fields => by
    have hfield := before.length_around field.length_lt after
    have hfields := fields.length_lt
    omega

theorem SpellsField.length_lt : ∀ {cs rest : List Char} {f : List TextUnit × Document},
    SpellsField cs f rest → rest.length < cs.length
  | _, _, _, .parts name colon before value => by
    have hname := name.length_lt
    have hcolon := colon.length_le
    have hbefore := before.length_le
    have hvalue := value.length_lt
    rw [List.length_cons] at hcolon ⊢
    omega

end

/-! ## Where a part starts -/

theorem isDigit_digitChar : ∀ d, (digitChar d).isDigit = true := by decide

/-- The first character of a numeral is a minus or a digit. -/
theorem SpellsNumeral.head {cs rest : List Char} {n : Numeral} (h : SpellsNumeral cs n rest) :
    ∃ c cs', cs = c :: cs' ∧ (c = '-' ∨ c.isDigit = true) := by
  cases h with
  | parts negative hwhole =>
    cases negative with
    | true => exact ⟨_, _, rfl, .inl rfl⟩
    | false => cases hwhole <;> exact ⟨_, _, rfl, .inr (isDigit_digitChar _)⟩

/-- What starts a numeral starts nothing else. -/
theorem ne_of_startsNumeral {c : Char} (h : c = '-' ∨ c.isDigit = true) :
    isSpace c = false ∧ c ≠ 'n' ∧ c ≠ 't' ∧ c ≠ 'f' ∧ c ≠ '"' ∧ c ≠ '[' ∧ c ≠ '\x7b' ∧ c ≠ ']' := by
  have hne (a : Char) (ha : a ≠ '-' ∧ a.isDigit = false) : c ≠ a := by
    rintro rfl
    rcases h with rfl | h
    · exact ha.1 rfl
    · rw [ha.2] at h
      cases h
  have hspace : isSpace c = false := by
    rw [isSpace, decide_eq_false (hne ' ' (by decide)), decide_eq_false (hne '\n' (by decide)),
      decide_eq_false (hne '\t' (by decide)), decide_eq_false (hne '\r' (by decide))]
    rfl
  exact ⟨hspace, hne _ (by decide), hne _ (by decide), hne _ (by decide), hne _ (by decide),
    hne _ (by decide), hne _ (by decide), hne _ (by decide)⟩

/-- No document starts with a space or with what ends an array. -/
theorem Spells.head {cs rest : List Char} {d : Document} (h : Spells cs d rest) :
    ∃ c cs', cs = c :: cs' ∧ isSpace c = false ∧ c ≠ ']' := by
  cases h with
  | number numeral =>
    obtain ⟨c, cs', rfl, hc⟩ := numeral.head
    obtain ⟨hspace, -, -, -, -, -, -, hclose⟩ := ne_of_startsNumeral hc
    exact ⟨c, cs', rfl, hspace, hclose⟩
  | null | yes | no | string | noItem | array | noField | object => exact ⟨_, _, rfl, by decide⟩

/-! ## Where a numeral ends -/

/-- Whether a character goes on a numeral. -/
def goesOn (c : Char) : Bool := c.isDigit || c = '.' || c = 'e' || c = 'E'

/-- A text that does not go on a numeral in front of it. -/
def EndsNumeral (rest : List Char) : Prop := ∀ c ∈ rest.head?, goesOn c = false

theorem EndsNumeral.head {rest : List Char} (h : EndsNumeral rest) {c : Char} (hc : c ∈ rest.head?) :
    c.isDigit = false ∧ c ≠ '.' ∧ ¬ (c = 'e' ∨ c = 'E') := by
  have hgo : goesOn c = false := h c hc
  simp only [goesOn, Bool.or_eq_false_iff, decide_eq_false_iff_not] at hgo
  obtain ⟨⟨⟨hdigit, hpoint⟩, he⟩, hE⟩ := hgo
  exact ⟨hdigit, hpoint, not_or.2 ⟨he, hE⟩⟩

theorem endsNumeral_cons {c : Char} (hc : goesOn c = false) (cs : List Char) :
    EndsNumeral (c :: cs) := by
  rintro _ ⟨⟩
  exact hc

/-- A numeral ends in front of blanks and what follows them. -/
theorem Blanks.endsNumeral {cs rest : List Char} (h : Blanks cs rest)
    (hrest : EndsNumeral rest) : EndsNumeral cs := by
  cases h with
  | none => exact hrest
  | more space =>
    intro c hc
    cases hc
    rw [isSpace] at space
    simp only [Bool.or_eq_true, decide_eq_true_eq] at space
    rcases space with ((rfl | rfl) | rfl) | rfl <;> rfl

/-- Neither a digit nor a point follows the fraction. -/
theorem SpellsExponent.head {cs rest : List Char} {e : Option Exponent}
    (h : SpellsExponent cs e rest) (hrest : EndsNumeral rest) :
    ∀ c ∈ cs.head?, c.isDigit = false ∧ c ≠ '.' := by
  intro c hc
  cases h with
  | absent =>
    obtain ⟨hdigit, hpoint, -⟩ := hrest.head hc
    exact ⟨hdigit, hpoint⟩
  | digits hletter =>
    cases hc
    rcases hletter with rfl | rfl <;> decide

/-- No digit follows the whole part. -/
theorem SpellsFraction.head {cs rest : List Char} {ds : List Digit} (h : SpellsFraction cs ds rest)
    (hrest : ∀ c ∈ rest.head?, c.isDigit = false ∧ c ≠ '.') :
    ∀ c ∈ cs.head?, c.isDigit = false := by
  intro c hc
  cases h with
  | absent => exact (hrest c hc).1
  | digits => cases hc; decide

end CourseBlueprint.Json
