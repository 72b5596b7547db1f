import CourseBlueprint.Proofs.Json.Grammar

/-!
# The reader of JSON texts

The reader finds the one spelling that a text has. What it reads is spelled
(`spells_of_readDocument`), and what is spelled is read, unless a numeral goes on behind it
(`readDocument_of_spells`). Nothing is behind a whole text, so the reader accepts the texts of the
grammar and no others (`Document.ofChars?_eq_some_iff`).
-/

namespace CourseBlueprint.Json

/-! ## Blanks -/

theorem skipSpace_of_ne {c : Char} {cs : List Char} (h : isSpace c = false) :
    skipSpace (c :: cs) = c :: cs := by simp [skipSpace, h]

theorem blanks_skipSpace (cs : List Char) : Blanks cs (skipSpace cs) := by
  induction cs with
  | nil => exact .none []
  | cons c cs ih =>
    cases hc : isSpace c with
    | false =>
      rw [skipSpace_of_ne hc]
      exact .none _
    | true =>
      rw [skipSpace, List.dropWhile_cons_of_pos hc]
      exact .more hc ih

theorem Blanks.skipSpace_eq {cs rest : List Char} (h : Blanks cs rest) :
    skipSpace cs = skipSpace rest := by
  induction h with
  | none => rfl
  | more hc _ ih => rw [skipSpace, List.dropWhile_cons_of_pos hc, ← ih, skipSpace]

/-- Blanks end at the first character that is no space. -/
theorem Blanks.skipSpace_eq_cons {cs rest : List Char} {c : Char} (h : Blanks cs (c :: rest))
    (hc : isSpace c = false) : skipSpace cs = c :: rest := by
  rw [h.skipSpace_eq, skipSpace_of_ne hc]

theorem skipSpace_skipSpace (cs : List Char) : skipSpace (skipSpace cs) = skipSpace cs :=
  (blanks_skipSpace cs).skipSpace_eq.symm

theorem readDocument_skipSpace (steps : Nat) (cs : List Char) :
    readDocument steps (skipSpace cs) = readDocument steps cs := by
  cases steps with
  | zero => simp [readDocument]
  | succ steps => simp only [readDocument, skipSpace_skipSpace]

theorem readItems_skipSpace (steps : Nat) (cs : List Char) :
    readItems steps (skipSpace cs) = readItems steps cs := by
  cases steps with
  | zero => simp [readItems]
  | succ steps => simp only [readItems, readDocument_skipSpace]

theorem readFields_skipSpace (steps : Nat) (cs : List Char) :
    readFields steps (skipSpace cs) = readFields steps cs := by
  cases steps with
  | zero => simp [readFields]
  | succ steps => simp only [readFields, skipSpace_skipSpace]

theorem Blanks.readDocument_eq {cs rest : List Char} (h : Blanks cs rest) (steps : Nat) :
    readDocument steps cs = readDocument steps rest := by
  rw [← readDocument_skipSpace, h.skipSpace_eq, readDocument_skipSpace]

/-! ## Strings -/

theorem shortEscape?_eq_some_iff {l c : Char} :
    shortEscape? l = some c ↔ (l, c) ∈ letterEscapes := by
  constructor
  · intro h
    rw [shortEscape?] at h
    split at h
    · next hl =>
      cases h
      rcases hl with rfl | rfl | rfl <;> decide
    repeat'
      split at h
      · next hl =>
        cases h
        subst hl
        decide
    cases h
  · intro h
    simp only [letterEscapes, List.mem_cons, Prod.mk.injEq, List.not_mem_nil, or_false] at h
    rcases h with ⟨rfl, rfl⟩ | ⟨rfl, rfl⟩ | ⟨rfl, rfl⟩ | ⟨rfl, rfl⟩ | ⟨rfl, rfl⟩ | ⟨rfl, rfl⟩ |
      ⟨rfl, rfl⟩ | ⟨rfl, rfl⟩ <;> rfl

/-- No letter escape is the one by code. -/
theorem ne_u_of_mem_letterEscapes {l c : Char} (h : (l, c) ∈ letterEscapes) : l ≠ 'u' := by
  rintro rfl
  have hu : shortEscape? 'u' = none := by decide
  cases hu.symm.trans (shortEscape?_eq_some_iff.2 h)

/-- The units that are read are spelled, one case for each kind of escape. -/
theorem spellsUnits_of_readUnits {cs rest : List Char} {us : List TextUnit}
    (h : readUnits cs = some (us, rest)) : SpellsUnits cs us rest := by
  fun_induction readUnits cs generalizing us with
  | case1 => cases h
  | case2 cs => cases h; exact .close _
  | case3 h₁ h₂ h₃ h₄ cs ih =>
    obtain ⟨code, hcode, h⟩ := Option.bind_eq_some_iff.1 h
    obtain ⟨⟨us, _⟩, hus, heq⟩ := Option.map_eq_some_iff.1 h
    cases heq
    exact .code hcode (ih hus)
  | case4 l cs _ ih =>
    obtain ⟨c, hc, h⟩ := Option.bind_eq_some_iff.1 h
    obtain ⟨⟨us, _⟩, hus, heq⟩ := Option.map_eq_some_iff.1 h
    cases heq
    exact .letter (shortEscape?_eq_some_iff.1 hc) (ih hus)
  | case5 => cases h
  | case6 c cs hquote _ _ hne ih =>
    obtain ⟨⟨us, _⟩, hus, heq⟩ := Option.map_eq_some_iff.1 h
    cases heq
    exact .plain hquote (not_or.1 hne).1 (not_or.1 hne).2 (ih hus)

/-- A character that needs no escape is read as it is. -/
theorem readUnits_cons {c : Char} (hquote : c ≠ '"') (hbackslash : c ≠ '\\')
    (hcontrol : ¬ c.toNat < 0x20) (cs : List Char) :
    readUnits (c :: cs) = (readUnits cs).map fun (us, rest) => (.char c :: us, rest) := by
  rw [readUnits.eq_def]
  split
  · next heq => cases heq
  · next heq => exact absurd (List.cons.inj heq).1 hquote
  · next heq => exact absurd (List.cons.inj heq).1 hbackslash
  · next heq => exact absurd (List.cons.inj heq).1 hbackslash
  · next heq =>
    obtain ⟨rfl, rfl⟩ := List.cons.inj heq
    rw [if_neg (not_or.2 ⟨hbackslash, hcontrol⟩)]

theorem readUnits_of_spellsUnits {cs rest : List Char} {us : List TextUnit}
    (h : SpellsUnits cs us rest) : readUnits cs = some (us, rest) := by
  induction h with
  | close => simp [readUnits]
  | plain hquote hbackslash hcontrol _ ih =>
    rw [readUnits_cons hquote hbackslash hcontrol, ih]
    rfl
  | letter escape _ ih =>
    have hu := ne_u_of_mem_letterEscapes escape
    simp [readUnits, shortEscape?_eq_some_iff.2 escape, ih, hu]
  | code hex _ ih => simp [readUnits, hex, ih]

/-! ## Numerals -/

theorem digitChar_ne_sign : ∀ d, digitChar d ≠ '-' ∧ digitChar d ≠ '+' := by decide

theorem digitOf_digitChar : ∀ d, digitOf (digitChar d) = d := by decide

theorem toNat_of_isDigit {c : Char} (h : c.isDigit = true) :
    '0'.toNat ≤ c.toNat ∧ c.toNat ≤ '9'.toNat := by
  simpa [Char.isDigit, UInt32.le_iff_toNat_le] using h

theorem val_digitOf {c : Char} (h : c.isDigit = true) : (digitOf c).val = c.toNat - '0'.toNat :=
  Nat.mod_eq_of_lt
    (Nat.lt_of_le_of_lt (Nat.sub_le_sub_right (toNat_of_isDigit h).2 _) (by decide))

theorem digitChar_digitOf {c : Char} (h : c.isDigit = true) : digitChar (digitOf c) = c := by
  rw [digitChar, val_digitOf h, Nat.add_sub_cancel' (toNat_of_isDigit h).1, Char.ofNat_toNat]

theorem eq_append_of_readDigits {cs rest : List Char} {ds : List Digit}
    (h : readDigits cs = (ds, rest)) : cs = ds.map digitChar ++ rest := by
  fun_induction readDigits cs generalizing ds with
  | case1 => cases h; rfl
  | case2 c cs hc ds' rest' hread ih =>
    cases h
    rw [List.map_cons, List.cons_append, digitChar_digitOf hc, ← ih hread]
  | case3 c cs hc => cases h; rfl

/-- Digits are read up to the first character that is none. -/
theorem readDigits_append (ds : List Digit) {rest : List Char}
    (h : ∀ c ∈ rest.head?, c.isDigit = false) :
    readDigits (ds.map digitChar ++ rest) = (ds, rest) := by
  induction ds with
  | nil =>
    cases rest with
    | nil => rfl
    | cons c rest =>
      have hc : c.isDigit = false := h c rfl
      simp [readDigits, hc]
  | cons d ds ih => simp [readDigits, isDigit_digitChar, digitOf_digitChar, ih]

theorem isWhole_of_readWhole {cs rest : List Char} {ds : List Digit}
    (h : readWhole cs = some (ds, rest)) : IsWhole ds ∧ cs = ds.map digitChar ++ rest := by
  rw [readWhole] at h
  split at h
  · cases h
  · next d d' ds' rest' hread =>
    split at h
    · cases h
    · next hd =>
      cases h
      exact ⟨.digits (fun heq => hd (by rw [heq]; rfl)) _, eq_append_of_readDigits hread⟩
  · next ds' rest' hnil hcons hread =>
    cases h
    refine ⟨?_, eq_append_of_readDigits hread⟩
    match ds, hnil, hcons with
    | [], hnil, _ => exact absurd rfl hnil
    | [d], _, _ =>
      by_cases hd : d = 0
      · rw [hd]
        exact .zero
      · exact .digits hd []
    | d :: d' :: ds, _, hcons => exact absurd rfl (hcons _ _ _)

theorem readWhole_append {ds : List Digit} (hds : IsWhole ds) {rest : List Char}
    (h : ∀ c ∈ rest.head?, c.isDigit = false) :
    readWhole (ds.map digitChar ++ rest) = some (ds, rest) := by
  rw [readWhole, readDigits_append ds h]
  cases hds with
  | zero => rfl
  | digits hd ds =>
    cases ds with
    | nil => rfl
    | cons d' ds => exact if_neg fun hval => hd (Fin.ext hval)

theorem spellsFraction_of_readFraction {cs rest : List Char} {ds : List Digit}
    (h : readFraction cs = some (ds, rest)) : SpellsFraction cs ds rest := by
  rw [readFraction.eq_def] at h
  split at h
  · next cs' =>
    split at h
    · cases h
    · next ds' rest' hnil hread =>
      cases h
      rw [eq_append_of_readDigits hread]
      cases ds with
      | nil => exact absurd rfl hnil
      | cons d ds => exact .digits d ds rest
  · cases h
    exact .absent _

theorem readFraction_of_spellsFraction {cs rest : List Char} {ds : List Digit}
    (h : SpellsFraction cs ds rest) (hrest : ∀ c ∈ rest.head?, c.isDigit = false ∧ c ≠ '.') :
    readFraction cs = some (ds, rest) := by
  cases h with
  | absent =>
    rw [readFraction.eq_def]
    split
    · exact absurd rfl (hrest '.' rfl).2
    · rfl
  | digits d ds rest =>
    rw [readFraction, readDigits_append (d :: ds) fun c hc => (hrest c hc).1]

theorem spellsExponent_of_readExponent {cs rest : List Char} {e : Option Exponent}
    (h : readExponent cs = some (e, rest)) : SpellsExponent cs e rest := by
  rw [readExponent.eq_def] at h
  split at h
  · next c cs' =>
    split at h
    · next hc =>
      split at h
      next negative cs'' hsign =>
      split at h
      · cases h
      · next ds rest' hnil hread =>
        cases h
        have hs : SpellsSign cs' negative cs'' := by
          split at hsign <;> cases hsign
          · exact .minus _
          · exact .plus _
          · exact .absent _
        rw [eq_append_of_readDigits hread] at hs
        cases ds with
        | nil => exact absurd rfl hnil
        | cons d ds => exact .digits hc hs
    · cases h
      exact .absent _
  · cases h
    exact .absent _

theorem readExponent_of_spellsExponent {cs rest : List Char} {e : Option Exponent}
    (h : SpellsExponent cs e rest) (hrest : EndsNumeral rest) :
    readExponent cs = some (e, rest) := by
  cases h with
  | absent =>
    rw [readExponent.eq_def]
    split
    · next c cs =>
      obtain ⟨-, -, hletter⟩ := hrest.head rfl
      exact if_neg hletter
    · rfl
  | digits hletter sign =>
    rename_i letter cs negative d ds
    have hread : readDigits ((d :: ds).map digitChar ++ rest) = (d :: ds, rest) :=
      readDigits_append (d :: ds) fun c hc => (hrest.head hc).1
    -- a sign is taken if there is one, and a digit is none
    cases sign with
    | absent =>
      rw [readExponent, if_pos hletter, hread]
      · exact fun _ heq => (digitChar_ne_sign d).1 (List.cons.inj heq).1
      · exact fun _ heq => (digitChar_ne_sign d).2 (List.cons.inj heq).1
    | plus => rw [readExponent, if_pos hletter, hread]
    | minus => rw [readExponent, if_pos hletter, hread]

theorem spellsNumeral_of_readNumeral {cs rest : List Char} {n : Numeral}
    (h : readNumeral cs = some (n, rest)) : SpellsNumeral cs n rest := by
  rw [readNumeral.eq_def] at h
  split at h
  next negative cs₁ hsign =>
  have hcs : cs = (if negative then ['-'] else []) ++ cs₁ := by
    split at hsign <;> cases hsign <;> rfl
  obtain ⟨⟨whole, cs₂⟩, hwhole, h⟩ := Option.bind_eq_some_iff.1 h
  obtain ⟨⟨fraction, cs₃⟩, hfraction, h⟩ := Option.bind_eq_some_iff.1 h
  obtain ⟨⟨exponent, cs₄⟩, hexponent, h⟩ := Option.bind_eq_some_iff.1 h
  cases h
  obtain ⟨hds, heq⟩ := isWhole_of_readWhole hwhole
  rw [hcs, heq]
  exact .parts negative hds (spellsFraction_of_readFraction hfraction)
    (spellsExponent_of_readExponent hexponent)

/-- A numeral is read to its end, if nothing behind goes on with it. -/
theorem readNumeral_of_spellsNumeral {cs rest : List Char} {n : Numeral}
    (h : SpellsNumeral cs n rest) (hrest : EndsNumeral rest) :
    readNumeral cs = some (n, rest) := by
  cases h with
  | parts negative hwhole hfraction hexponent =>
    rename_i cs cs₁ whole fraction exponent
    have hhead := hexponent.head hrest
    rw [readNumeral.eq_def]
    split
    next sign cs₂ hsign =>
    have hcs : sign = negative ∧ cs₂ = whole.map digitChar ++ cs := by
      cases negative with
      | true =>
        cases hsign
        exact ⟨rfl, rfl⟩
      | false =>
        split at hsign
        · next heq =>
          cases hwhole <;> exact absurd (List.cons.inj heq).1 (digitChar_ne_sign _).1
        · cases hsign
          exact ⟨rfl, rfl⟩
    obtain ⟨rfl, rfl⟩ := hcs
    simp only [readWhole_append hwhole (hfraction.head hhead),
      readFraction_of_spellsFraction hfraction hhead,
      readExponent_of_spellsExponent hexponent hrest, Option.bind_eq_bind, Option.bind_some]
    rfl

/-! ## Documents that are read -/

-- By induction on the steps: each function of the reader calls the others with one step less.
mutual

/-- What is read is spelled, behind the blanks that are skipped. -/
theorem spells_of_readDocument : ∀ (steps : Nat) {cs rest : List Char} {d : Document},
    readDocument steps cs = some (d, rest) → ∃ cs₁, Blanks cs cs₁ ∧ Spells cs₁ d rest
  | 0, _, _, _, h => by simp [readDocument] at h
  | steps + 1, cs, rest, d, h => by
    rw [readDocument] at h
    refine ⟨skipSpace cs, blanks_skipSpace cs, ?_⟩
    split at h
    · next heq => cases h; rw [heq]; exact .null _
    · next heq => cases h; rw [heq]; exact .yes _
    · next heq => cases h; rw [heq]; exact .no _
    · next cs₁ heq =>
      obtain ⟨⟨us, _⟩, hus, hd⟩ := Option.map_eq_some_iff.1 h
      cases hd
      rw [heq]
      exact .string (spellsUnits_of_readUnits hus)
    · next cs₁ heq =>
      rw [heq]
      split at h
      · next hclose =>
        cases h
        exact .noItem (hclose ▸ blanks_skipSpace cs₁)
      · obtain ⟨⟨ds, _⟩, hds, hd⟩ := Option.map_eq_some_iff.1 h
        cases hd
        rw [readItems_skipSpace] at hds
        exact .array (spellsItems_of_readItems steps hds)
    · next cs₁ heq =>
      rw [heq]
      split at h
      · next hclose =>
        cases h
        exact .noField (hclose ▸ blanks_skipSpace cs₁)
      · obtain ⟨⟨fs, _⟩, hfs, hd⟩ := Option.map_eq_some_iff.1 h
        cases hd
        rw [readFields_skipSpace] at hfs
        exact .object (spellsFields_of_readFields steps hfs)
    · obtain ⟨⟨n, _⟩, hn, hd⟩ := Option.map_eq_some_iff.1 h
      cases hd
      exact .number (spellsNumeral_of_readNumeral hn)

theorem spellsItems_of_readItems : ∀ (steps : Nat) {cs rest : List Char} {ds : List Document},
    readItems steps cs = some (ds, rest) → SpellsItems cs ds rest
  | 0, _, _, _, h => by simp [readItems] at h
  | steps + 1, cs, rest, ds, h => by
    rw [readItems] at h
    obtain ⟨⟨d, cs₂⟩, hread, h⟩ := Option.bind_eq_some_iff.1 h
    obtain ⟨cs₁, hbefore, hitem⟩ := spells_of_readDocument steps hread
    have hafter := blanks_skipSpace cs₂
    dsimp only at h
    split at h
    · next cs₃ heq =>
      obtain ⟨⟨ds, _⟩, hds, hcons⟩ := Option.map_eq_some_iff.1 h
      cases hcons
      exact .more hbefore hitem (heq ▸ hafter) (spellsItems_of_readItems steps hds)
    · next cs₃ heq =>
      cases h
      exact .last hbefore hitem (heq ▸ hafter)
    · cases h

theorem spellsFields_of_readFields : ∀ (steps : Nat) {cs rest : List Char}
    {fs : List (List TextUnit × Document)},
    readFields steps cs = some (fs, rest) → SpellsFields cs fs rest
  | 0, _, _, _, h => by simp [readFields] at h
  | steps + 1, cs, rest, fs, h => by
    rw [readFields] at h
    split at h
    · next cs₁ hquote =>
      have hbefore : Blanks cs ('"' :: cs₁) := hquote ▸ blanks_skipSpace cs
      obtain ⟨⟨key, cs₂⟩, hkey, h⟩ := Option.bind_eq_some_iff.1 h
      dsimp only at h
      split at h
      · next cs₃ hcolon =>
        obtain ⟨⟨d, cs₄⟩, hread, h⟩ := Option.bind_eq_some_iff.1 h
        obtain ⟨_, hgap, hvalue⟩ := spells_of_readDocument steps hread
        have hfield : SpellsField ('"' :: cs₁) (key, d) cs₄ :=
          .parts (spellsUnits_of_readUnits hkey) (hcolon ▸ blanks_skipSpace cs₂) hgap hvalue
        have hafter := blanks_skipSpace cs₄
        dsimp only at h
        split at h
        · next cs₅ heq =>
          obtain ⟨⟨fs, _⟩, hfs, hcons⟩ := Option.map_eq_some_iff.1 h
          cases hcons
          exact .more hbefore hfield (heq ▸ hafter) (spellsFields_of_readFields steps hfs)
        · next cs₅ heq =>
          cases h
          exact .last hbefore hfield (heq ▸ hafter)
        · cases h
      · cases h
    · cases h

end

/-! ## Documents that are spelled -/

theorem SpellsItems.head {cs rest : List Char} {ds : List Document} (h : SpellsItems cs ds rest) :
    ∃ c cs', skipSpace cs = c :: cs' ∧ c ≠ ']' := by
  cases h with
  | last before item | more before item =>
    obtain ⟨c, cs', rfl, hspace, hclose⟩ := item.head
    exact ⟨c, cs', before.skipSpace_eq_cons hspace, hclose⟩

theorem SpellsFields.head {cs rest : List Char} {fs : List (List TextUnit × Document)}
    (h : SpellsFields cs fs rest) : ∃ cs', skipSpace cs = '"' :: cs' := by
  cases h with
  | last before field | more before field =>
    cases field with
    | parts => exact ⟨_, before.skipSpace_eq_cons (by decide)⟩

theorem readDocument_numeral {steps : Nat} {cs rest : List Char} {n : Numeral}
    (h : SpellsNumeral cs n rest) : readDocument (steps + 1) cs =
      (readNumeral cs).map fun (n, rest) => (.number n, rest) := by
  obtain ⟨c, cs', rfl, hc⟩ := h.head
  obtain ⟨hspace, hn, ht, hf, hquote, hbracket, hbrace, -⟩ := ne_of_startsNumeral hc
  rw [readDocument, skipSpace_of_ne hspace]
  split
  · next heq => exact absurd (List.cons.inj heq).1 hn
  · next heq => exact absurd (List.cons.inj heq).1 ht
  · next heq => exact absurd (List.cons.inj heq).1 hf
  · next heq => exact absurd (List.cons.inj heq).1 hquote
  · next heq => exact absurd (List.cons.inj heq).1 hbracket
  · next heq => exact absurd (List.cons.inj heq).1 hbrace
  · rfl

/-- An array that is not closed at once is read as its items. -/
theorem readDocument_bracket {steps : Nat} {cs rest : List Char} {ds : List Document}
    (h : SpellsItems cs ds rest) : readDocument (steps + 1) ('[' :: cs) =
      (readItems steps cs).map fun (items, rest) => (.array items, rest) := by
  obtain ⟨c, cs', hcs, hc⟩ := h.head
  rw [← readItems_skipSpace, hcs]
  simp only [readDocument, skipSpace_of_ne (show isSpace '[' = false by decide), hcs]
  split
  · next heq => exact absurd (List.cons.inj heq).1 hc
  · rfl

/-- An object that is not closed at once is read as its fields. -/
theorem readDocument_brace {steps : Nat} {cs rest : List Char}
    {fs : List (List TextUnit × Document)} (h : SpellsFields cs fs rest) :
    readDocument (steps + 1) ('\x7b' :: cs) =
      (readFields steps cs).map fun (fields, rest) => (.object fields, rest) := by
  obtain ⟨cs', hcs⟩ := h.head
  rw [← readFields_skipSpace, hcs]
  simp [readDocument, skipSpace_of_ne (show isSpace '\x7b' = false by decide), hcs]

/-- The steps that are left are enough for a part between blanks. -/
theorem Blanks.steps_around {cs cs₁ cs₂ cs₃ rest : List Char} {c : Char} {steps : Nat}
    (before : Blanks cs cs₁) (after : Blanks cs₂ (c :: cs₃)) (hrest : rest.length ≤ cs₃.length)
    (hsteps : 2 * cs.length < steps + 1 + 2 * rest.length) :
    2 * cs₁.length ≤ steps + 2 * cs₂.length := by
  have hbefore := before.length_le
  have hafter := after.length_le
  rw [List.length_cons] at hafter
  omega

-- By induction on the spelling. Two steps for each character are enough, since an item or a field
-- takes a step of its own besides those for the document in it.
mutual

/-- What is spelled is read, in two steps for each character. -/
theorem readDocument_of_spells : ∀ {cs rest : List Char} {d : Document}, Spells cs d rest →
    EndsNumeral rest → ∀ steps, 2 * cs.length ≤ steps + 2 * rest.length →
    readDocument steps cs = some (d, rest)
  | cs, rest, d, h, hrest, 0, hsteps => absurd h.length_lt (by omega)
  | _, _, _, .null rest, _, steps + 1, _ => by simp [readDocument, skipSpace, isSpace]
  | _, _, _, .yes rest, _, steps + 1, _ => by simp [readDocument, skipSpace, isSpace]
  | _, _, _, .no rest, _, steps + 1, _ => by simp [readDocument, skipSpace, isSpace]
  | _, _, _, .number numeral, hrest, steps + 1, _ => by
    rw [readDocument_numeral numeral, readNumeral_of_spellsNumeral numeral hrest]
    rfl
  | _, _, _, .string units, _, steps + 1, _ => by
    simp [readDocument, skipSpace, isSpace, readUnits_of_spellsUnits units]
  | _, _, _, .noItem close, _, steps + 1, _ => by
    simp [readDocument, skipSpace_of_ne (show isSpace '[' = false by decide),
      close.skipSpace_eq_cons (by decide)]
  | _, _, _, .array items, _, steps + 1, hsteps => by
    rw [List.length_cons] at hsteps
    rw [readDocument_bracket items, readItems_of_spellsItems items steps (by omega)]
    rfl
  | _, _, _, .noField close, _, steps + 1, _ => by
    simp [readDocument, skipSpace_of_ne (show isSpace '\x7b' = false by decide),
      close.skipSpace_eq_cons (by decide)]
  | _, _, _, .object fields, _, steps + 1, hsteps => by
    rw [List.length_cons] at hsteps
    rw [readDocument_brace fields, readFields_of_spellsFields fields steps (by omega)]
    rfl

theorem readItems_of_spellsItems : ∀ {cs rest : List Char} {ds : List Document},
    SpellsItems cs ds rest → ∀ steps, 2 * cs.length < steps + 2 * rest.length →
    readItems steps cs = some (ds, rest)
  | cs, rest, ds, h, 0, hsteps => absurd h.length_lt (by omega)
  | _, _, _, .last before item after, steps + 1, hsteps => by
    have hends := after.endsNumeral (endsNumeral_cons (by decide) _)
    have hread := readDocument_of_spells item hends steps
      (before.steps_around after (Nat.le_refl _) hsteps)
    rw [readItems, before.readDocument_eq, hread]
    simp only [Option.bind_some, after.skipSpace_eq_cons (show isSpace ']' = false by decide)]
  | _, _, _, .more before item after items, steps + 1, hsteps => by
    have hends := after.endsNumeral (endsNumeral_cons (by decide) _)
    have hread := readDocument_of_spells item hends steps
      (before.steps_around after (Nat.le_of_lt items.length_lt) hsteps)
    have hlength := before.length_around item.length_lt after
    have hitems := readItems_of_spellsItems items steps (by omega)
    rw [readItems, before.readDocument_eq, hread]
    simp only [Option.bind_some, after.skipSpace_eq_cons (show isSpace ',' = false by decide),
      hitems, Option.map_some]

theorem readFields_of_spellsFields : ∀ {cs rest : List Char}
    {fs : List (List TextUnit × Document)}, SpellsFields cs fs rest → ∀ steps,
    2 * cs.length < steps + 2 * rest.length → readFields steps cs = some (fs, rest)
  | cs, rest, fs, h, 0, hsteps => absurd h.length_lt (by omega)
  | _, _, _, .last before field after, steps + 1, hsteps => by
    have hends := after.endsNumeral (endsNumeral_cons (by decide) _)
    obtain ⟨cs₁, cs₂, cs₃, rfl, hname, hcolon, hread⟩ := readField_of_spellsField field hends steps
      (before.steps_around after (Nat.le_refl _) hsteps)
    rw [readFields, before.skipSpace_eq_cons (by decide)]
    simp only [hname, Option.bind_some, hcolon, hread,
      after.skipSpace_eq_cons (show isSpace '\x7d' = false by decide)]
  | _, _, _, .more before field after fields, steps + 1, hsteps => by
    have hends := after.endsNumeral (endsNumeral_cons (by decide) _)
    have hlength := before.length_around field.length_lt after
    have hfields := readFields_of_spellsFields fields steps (by omega)
    obtain ⟨cs₁, cs₂, cs₃, rfl, hname, hcolon, hread⟩ := readField_of_spellsField field hends steps
      (before.steps_around after (Nat.le_of_lt fields.length_lt) hsteps)
    rw [readFields, before.skipSpace_eq_cons (by decide)]
    simp only [hname, Option.bind_some, hcolon, hread,
      after.skipSpace_eq_cons (show isSpace ',' = false by decide), hfields, Option.map_some]

theorem readField_of_spellsField : ∀ {cs rest : List Char} {f : List TextUnit × Document},
    SpellsField cs f rest → EndsNumeral rest → ∀ steps, 2 * cs.length ≤ steps + 2 * rest.length →
    ∃ cs₁ cs₂ cs₃, cs = '"' :: cs₁ ∧ readUnits cs₁ = some (f.1, cs₂) ∧
      skipSpace cs₂ = ':' :: cs₃ ∧ readDocument steps cs₃ = some (f.2, rest)
  | _, _, _, .parts name colon before value, hrest, steps, hsteps => by
    have hname := name.length_lt
    have hcolon := colon.length_le
    have hbefore := before.length_le
    rw [List.length_cons] at hcolon hsteps
    have hread := readDocument_of_spells value hrest steps (by omega)
    rw [← before.readDocument_eq] at hread
    exact ⟨_, _, _, rfl, readUnits_of_spellsUnits name, colon.skipSpace_eq_cons (by decide), hread⟩

end

/-! ## Whole texts -/

/-- The reader accepts the texts of the grammar, and reads from each the document it spells. -/
theorem Document.ofChars?_eq_some_iff {cs : List Char} {d : Document} :
    Document.ofChars? cs = some d ↔ d.SpelledBy cs := by
  constructor
  · intro h
    rw [Document.ofChars?] at h
    split at h
    · next d' rest hread =>
      obtain ⟨cs₁, hbefore, hspells⟩ := spells_of_readDocument _ hread
      split at h
      · next hempty =>
        cases h
        exact ⟨cs₁, rest, hbefore, hspells, List.isEmpty_iff.1 hempty ▸ blanks_skipSpace rest⟩
      · cases h
    · cases h
  · rintro ⟨cs₁, cs₂, hbefore, hspells, hafter⟩
    have hends : EndsNumeral cs₂ := hafter.endsNumeral (by rintro _ ⟨⟩)
    have hread := readDocument_of_spells hspells hends (2 * cs.length + 1) (by
      have := hbefore.length_le
      omega)
    rw [← hbefore.readDocument_eq] at hread
    rw [Document.ofChars?, hread]
    simp only [hafter.skipSpace_eq]
    rfl

end CourseBlueprint.Json
