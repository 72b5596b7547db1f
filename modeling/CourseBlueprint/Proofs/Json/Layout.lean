import CourseBlueprint.Proofs.Json.Reader

/-!
# Documents that are written

A `Layout` says where blanks go in the text of a document. Whatever the layout is, what it writes
spells the document, if its numerals are in order (`Layout.spells_write`). The pretty and the compact
form are layouts, so that a document reads back from both (`Document.ofChars?_pretty`,
`Document.spelledBy_compact`).
-/

namespace CourseBlueprint.Json

/-! ## Layouts -/

/-- Where a document that is written has blanks. -/
structure Layout where
  /-- Before each item and each field of a level, and before the closing mark. -/
  lineBreak : Nat → List Char
  afterColon : List Char
  blank_lineBreak : ∀ level, ∀ c ∈ lineBreak level, isSpace c = true
  blank_afterColon : ∀ c ∈ afterColon, isSpace c = true

namespace Layout

mutual

/-- The document with blanks where the layout has them, from the given level on. -/
def write (l : Layout) (level : Nat) : Document → List Char
  | .null => "null".toList
  | .bool b => writeBool b
  | .number n => n.write
  | .string us => writeString us
  | .array [] => ['[', ']']
  | .array (d :: rest) => '[' :: (l.writeItems (level + 1) (d :: rest) ++ l.lineBreak level ++ [']'])
  | .object [] => ['{', '}']
  | .object (f :: rest) => '{' :: (l.writeFields (level + 1) (f :: rest) ++ l.lineBreak level ++ ['}'])

def writeItems (l : Layout) (level : Nat) : List Document → List Char
  | [] => []
  | [d] => l.lineBreak level ++ l.write level d
  | d :: rest => l.lineBreak level ++ l.write level d ++ ',' :: l.writeItems level rest

def writeFields (l : Layout) (level : Nat) : List (List TextUnit × Document) → List Char
  | [] => []
  | [(key, d)] => l.lineBreak level ++ writeString key ++ ':' :: (l.afterColon ++ l.write level d)
  | (key, d) :: rest =>
    l.lineBreak level ++ writeString key ++ ':' ::
      (l.afterColon ++ (l.write level d ++ ',' :: l.writeFields level rest))

end

/-- Items and fields on lines of their own. -/
def pretty : Layout where
  lineBreak := newline
  afterColon := [' ']
  blank_lineBreak := by
    intro level c hc
    rcases List.mem_cons.1 hc with rfl | hc
    · rfl
    · rw [List.eq_of_mem_replicate hc]; rfl
  blank_afterColon := by
    intro c hc
    rw [List.mem_singleton.1 hc]
    rfl

/-- All in one line, without a blank. -/
def compact : Layout where
  lineBreak _ := []
  afterColon := []
  blank_lineBreak := by rintro _ _ ⟨⟩
  blank_afterColon := by rintro _ ⟨⟩

mutual
theorem prettyAt_eq : ∀ (d : Document) (level : Nat), d.prettyAt level = pretty.write level d
  | .null, _ => by simp [Document.prettyAt, write]
  | .bool _, _ => by simp [Document.prettyAt, write]
  | .number _, _ => by simp [Document.prettyAt, write]
  | .string _, _ => by simp [Document.prettyAt, write]
  | .array [], _ => by simp [Document.prettyAt, write]
  | .array (d :: rest), level => by
    simp [Document.prettyAt, write, prettyItems_eq (d :: rest) (level + 1), pretty]
  | .object [], _ => by simp [Document.prettyAt, write]
  | .object (f :: rest), level => by
    simp [Document.prettyAt, write, prettyFields_eq (f :: rest) (level + 1), pretty]

theorem prettyItems_eq : ∀ (ds : List Document) (level : Nat),
    prettyItems level ds = pretty.writeItems level ds
  | [], _ => by simp [prettyItems, writeItems]
  | [d], level => by simp [prettyItems, writeItems, prettyAt_eq d level, pretty]
  | d :: e :: rest, level => by
    simp [prettyItems, writeItems, prettyAt_eq d level, prettyItems_eq (e :: rest) level, pretty]

theorem prettyFields_eq : ∀ (fs : List (List TextUnit × Document)) (level : Nat),
    prettyFields level fs = pretty.writeFields level fs
  | [], _ => by simp [prettyFields, writeFields]
  | [(key, d)], level => by simp [prettyFields, writeFields, prettyAt_eq d level, pretty]
  | (key, d) :: f :: rest, level => by
    simp [prettyFields, writeFields, prettyAt_eq d level, prettyFields_eq (f :: rest) level, pretty]
end

mutual
theorem compact_eq : ∀ (d : Document) (level : Nat), d.compact = compact.write level d
  | .null, _ => by simp [Document.compact, write]
  | .bool _, _ => by simp [Document.compact, write]
  | .number _, _ => by simp [Document.compact, write]
  | .string _, _ => by simp [Document.compact, write]
  | .array [], _ => by simp [Document.compact, compactItems, write]
  | .array (d :: rest), level => by
    simp [Document.compact, write, compactItems_eq (d :: rest) (level + 1), compact]
  | .object [], _ => by simp [Document.compact, compactFields, write]
  | .object (f :: rest), level => by
    simp [Document.compact, write, compactFields_eq (f :: rest) (level + 1), compact]

theorem compactItems_eq : ∀ (ds : List Document) (level : Nat),
    compactItems ds = compact.writeItems level ds
  | [], _ => by simp [compactItems, writeItems]
  | [d], level => by simp [compactItems, writeItems, compact_eq d level, compact]
  | d :: e :: rest, level => by
    simp [compactItems, writeItems, compact_eq d level, compactItems_eq (e :: rest) level, compact]

theorem compactFields_eq : ∀ (fs : List (List TextUnit × Document)) (level : Nat),
    compactFields fs = compact.writeFields level fs
  | [], _ => by simp [compactFields, writeFields]
  | [(key, d)], level => by simp [compactFields, writeFields, compact_eq d level, compact]
  | (key, d) :: f :: rest, level => by
    simp [compactFields, writeFields, compact_eq d level, compactFields_eq (f :: rest) level,
      compact]
end

end Layout

/-! ## Strings -/

theorem chars?_map_char (cs : List Char) : chars? (cs.map TextUnit.char) = some cs := by
  induction cs with
  | nil => rfl
  | cons c cs ih => rw [List.map_cons, chars?, ih, Option.map_some]

@[simp] theorem text?_units (s : String) : text? (units s) = some s := by
  rw [text?, units, chars?_map_char, Option.map_some, String.ofList_toList]

theorem unitOf_half (i : Fin 2048) : unitOf (0xd800 + i.val) = .half i := by
  have h : 0xd800 ≤ 0xd800 + i.val ∧ 0xd800 + i.val < 0xe000 := by omega
  rw [unitOf, if_pos h, Nat.add_sub_cancel_left]
  congr 1
  exact Fin.ext (Nat.mod_eq_of_lt i.isLt)

section
variable {cs rest : List Char} {us : List TextUnit}

theorem SpellsUnits.escapeCode {code : Nat} (h : code < 65536) (hunits : SpellsUnits cs us rest) :
    SpellsUnits (Json.escapeCode code ++ cs) (unitOf code :: us) rest := by
  have hr : Text.Hex.read? (Text.Hex.write 4 code) = some code := by
    rw [Text.Hex.read?_write, Nat.mod_eq_of_lt h]
  exact .code hr hunits

theorem SpellsUnits.writeUnit (u : TextUnit) (h : SpellsUnits cs us rest) :
    SpellsUnits (Json.writeUnit u ++ cs) (u :: us) rest := by
  cases u with
  | half i =>
    rw [Json.writeUnit, ← unitOf_half]
    exact .escapeCode (by omega) h
  | char c =>
    simp only [Json.writeUnit]
    -- each short escape is one of the letters of the grammar
    iterate 7
      split
      · next hc =>
        subst hc
        exact .letter (by decide) h
    split
    · next hlow =>
      have hunit : unitOf c.toNat = .char c := by
        rw [unitOf, if_neg (by omega), Char.ofNat_toNat]
      rw [← hunit]
      exact .escapeCode (by omega) h
    · next hquote hbackslash _ _ _ _ _ hlow => exact .plain hquote hbackslash hlow h

theorem spellsUnits_write (us : List TextUnit) (rest : List Char) :
    SpellsUnits (us.flatMap Json.writeUnit ++ '"' :: rest) us rest := by
  induction us with
  | nil => exact .close rest
  | cons u us ih =>
    rw [List.flatMap_cons, List.append_assoc]
    exact ih.writeUnit u

end

/-! ## Numerals -/

/-- The parts of a numeral that have to have digits have them. -/
structure Numeral.IsWritable (n : Numeral) : Prop where
  whole : IsWhole n.whole
  exponent : ∀ e ∈ n.exponent, e.digits ≠ []

theorem spellsNumeral_write {n : Numeral} (h : n.IsWritable) (rest : List Char) :
    SpellsNumeral (n.write ++ rest) n rest := by
  obtain ⟨negative, whole, fraction, exponent⟩ := n
  have hfraction (cs : List Char) : SpellsFraction ((if fraction = [] then [] else
      '.' :: fraction.map digitChar) ++ cs) fraction cs := by
    cases fraction with
    | nil => exact .absent cs
    | cons d ds => exact .digits d ds cs
  rw [Numeral.write]
  simp only [List.append_assoc]
  refine .parts negative h.whole (hfraction _) ?_
  cases exponent with
  | none => exact .absent rest
  | some e =>
    obtain ⟨sign, digits⟩ := e
    cases digits with
    | nil => exact absurd rfl (h.exponent _ rfl)
    | cons d ds =>
      cases sign with
      | false => exact .digits (.inl rfl) (.absent _)
      | true => exact .digits (.inl rfl) (.minus _)

/-! ## Documents -/

mutual

/-- The numerals in a document. -/
def Document.numerals : Document → List Numeral
  | .number n => [n]
  | .array items => numeralsOfItems items
  | .object fields => numeralsOfFields fields
  | _ => []

/-- The numerals in items. -/
def numeralsOfItems : List Document → List Numeral
  | [] => []
  | d :: rest => d.numerals ++ numeralsOfItems rest

/-- The numerals in fields. -/
def numeralsOfFields : List (List TextUnit × Document) → List Numeral
  | [] => []
  | (_, d) :: rest => d.numerals ++ numeralsOfFields rest

end

/-- All numerals in a document are in order. -/
def Document.IsWritable (d : Document) : Prop := ∀ n ∈ d.numerals, n.IsWritable

mutual

/-- Whether there is no number in a document. -/
def Document.isNumberFree : Document → Bool
  | .number _ => false
  | .array items => areNumberFree items
  | .object fields => haveNoNumber fields
  | _ => true

/-- Whether there is no number in any item. -/
def areNumberFree : List Document → Bool
  | [] => true
  | d :: rest => d.isNumberFree && areNumberFree rest

/-- Whether there is no number in any field. -/
def haveNoNumber : List (List TextUnit × Document) → Bool
  | [] => true
  | (_, d) :: rest => d.isNumberFree && haveNoNumber rest

end

mutual

theorem numerals_of_isNumberFree : ∀ d : Document, d.isNumberFree = true → d.numerals = []
  | .null, _ => by simp [Document.numerals]
  | .bool _, _ => by simp [Document.numerals]
  | .number _, h => by simp [Document.isNumberFree] at h
  | .string _, _ => by simp [Document.numerals]
  | .array items, h => by
    rw [Document.numerals, numeralsOfItems_of_areNumberFree items h]
  | .object fields, h => by
    rw [Document.numerals, numeralsOfFields_of_haveNoNumber fields h]

theorem numeralsOfItems_of_areNumberFree :
    ∀ ds : List Document, areNumberFree ds = true → numeralsOfItems ds = []
  | [], _ => by simp [numeralsOfItems]
  | d :: ds, h => by
    obtain ⟨hd, hds⟩ := Bool.and_eq_true_iff.1 h
    rw [numeralsOfItems, numerals_of_isNumberFree d hd, numeralsOfItems_of_areNumberFree ds hds,
      List.append_nil]

theorem numeralsOfFields_of_haveNoNumber :
    ∀ fs : List (List TextUnit × Document), haveNoNumber fs = true → numeralsOfFields fs = []
  | [], _ => by simp [numeralsOfFields]
  | (_, d) :: fs, h => by
    obtain ⟨hd, hfs⟩ := Bool.and_eq_true_iff.1 h
    rw [numeralsOfFields, numerals_of_isNumberFree d hd, numeralsOfFields_of_haveNoNumber fs hfs,
      List.append_nil]

end

theorem blanks_append {ws : List Char} (h : ∀ c ∈ ws, isSpace c = true) (cs : List Char) :
    Blanks (ws ++ cs) cs := by
  induction ws with
  | nil => exact .none cs
  | cons w ws ih =>
    exact .more (h w List.mem_cons_self) (ih fun c hc => h c (List.mem_cons_of_mem _ hc))

namespace Layout

mutual

/-- What a layout writes spells the document. -/
theorem spells_write (l : Layout) : ∀ (d : Document) (level : Nat) (rest : List Char),
    d.IsWritable → Spells (l.write level d ++ rest) d rest
  | .null, _, rest, _ => by
    simp only [write]
    exact .null rest
  | .bool true, _, rest, _ => by
    simp only [write, writeBool]
    exact .yes rest
  | .bool false, _, rest, _ => by
    simp only [write, writeBool]
    exact .no rest
  | .number n, _, rest, hd => by
    rw [write]
    exact .number (spellsNumeral_write (hd n (by simp [Document.numerals])) rest)
  | .string us, _, rest, _ => by
    have h := spellsUnits_write us rest
    simpa [write, writeString] using Spells.string h
  | .array [], _, rest, _ => by
    rw [write]
    exact .noItem (.none _)
  | .array (d :: ds), level, rest, hd => by
    have h := l.spellsItems_write (d :: ds) (level + 1) (l.lineBreak level) rest
      (by simpa only [Document.IsWritable, Document.numerals] using hd) (List.cons_ne_nil d ds)
      (l.blank_lineBreak level)
    simpa [write] using Spells.array h
  | .object [], _, rest, _ => by
    rw [write]
    exact .noField (.none _)
  | .object (f :: fs), level, rest, hd => by
    have h := l.spellsFields_write (f :: fs) (level + 1) (l.lineBreak level) rest
      (by simpa only [Document.IsWritable, Document.numerals] using hd) (List.cons_ne_nil f fs)
      (l.blank_lineBreak level)
    simpa [write] using Spells.object h

theorem spellsItems_write (l : Layout) : ∀ (ds : List Document) (level : Nat)
    (ws rest : List Char), (∀ n ∈ numeralsOfItems ds, n.IsWritable) → ds ≠ [] →
    (∀ c ∈ ws, isSpace c = true) →
    SpellsItems (l.writeItems level ds ++ (ws ++ ']' :: rest)) ds rest
  | [], _, _, _, _, hne, _ => absurd rfl hne
  | [d], level, ws, rest, hd, _, hw => by
    have hitem := l.spells_write d level (ws ++ ']' :: rest) fun n hn =>
      hd n (List.mem_append_left _ hn)
    rw [writeItems, List.append_assoc]
    exact .last (blanks_append (l.blank_lineBreak level) _) hitem (blanks_append hw _)
  | d :: e :: ds, level, ws, rest, hd, _, hw => by
    have hitem := l.spells_write d level
      (',' :: (l.writeItems level (e :: ds) ++ (ws ++ ']' :: rest))) fun n hn =>
        hd n (List.mem_append_left _ hn)
    have hitems := l.spellsItems_write (e :: ds) level ws rest
      (fun n hn => hd n (List.mem_append_right _ hn)) (List.cons_ne_nil e ds) hw
    have h := SpellsItems.more (blanks_append (l.blank_lineBreak level) _) hitem (.none _) hitems
    simpa [writeItems] using h

theorem spellsFields_write (l : Layout) : ∀ (fs : List (List TextUnit × Document)) (level : Nat)
    (ws rest : List Char), (∀ n ∈ numeralsOfFields fs, n.IsWritable) → fs ≠ [] →
    (∀ c ∈ ws, isSpace c = true) →
    SpellsFields (l.writeFields level fs ++ (ws ++ '\x7d' :: rest)) fs rest
  | [], _, _, _, _, hne, _ => absurd rfl hne
  | [(key, d)], level, ws, rest, hd, _, hw => by
    have hvalue := l.spells_write d level (ws ++ '\x7d' :: rest) fun n hn =>
      hd n (List.mem_append_left _ hn)
    have hfield := SpellsField.parts (spellsUnits_write key _) (.none _)
      (blanks_append l.blank_afterColon _) hvalue
    have h := SpellsFields.last (blanks_append (l.blank_lineBreak level) _) hfield
      (blanks_append hw _)
    simpa [writeFields, writeString] using h
  | (key, d) :: f :: fs, level, ws, rest, hd, _, hw => by
    have hvalue := l.spells_write d level
      (',' :: (l.writeFields level (f :: fs) ++ (ws ++ '\x7d' :: rest))) fun n hn =>
        hd n (List.mem_append_left _ hn)
    have hfield := SpellsField.parts (spellsUnits_write key _) (.none _)
      (blanks_append l.blank_afterColon _) hvalue
    have hfields := l.spellsFields_write (f :: fs) level ws rest
      (fun n hn => hd n (List.mem_append_right _ hn)) (List.cons_ne_nil f fs) hw
    have h := SpellsFields.more (blanks_append (l.blank_lineBreak level) _) hfield (.none _) hfields
    simpa [writeFields, writeString] using h

end

/-- The text of a document in a layout is that document. -/
theorem spelledBy_write (l : Layout) (level : Nat) {d : Document} (hd : d.IsWritable) :
    d.SpelledBy (l.write level d) := by
  have h := l.spells_write d level [] hd
  rw [List.append_nil] at h
  exact ⟨_, _, .none _, h, .none _⟩

end Layout

namespace Document

/-- The compact text of a document is that document. -/
theorem spelledBy_compact {d : Document} (hd : d.IsWritable) : d.SpelledBy d.compact := by
  rw [Layout.compact_eq d 0]
  exact Layout.compact.spelledBy_write 0 hd

/-- A document without numbers reads back from its pretty text. -/
theorem ofChars?_pretty {d : Document} (hd : d.isNumberFree = true) :
    Document.ofChars? d.pretty = some d := by
  have hwritable : d.IsWritable := by
    rw [IsWritable, numerals_of_isNumberFree d hd]
    rintro _ ⟨⟩
  rw [ofChars?_eq_some_iff, pretty, Layout.prettyAt_eq]
  exact Layout.pretty.spelledBy_write 0 hwritable

end Document

end CourseBlueprint.Json
