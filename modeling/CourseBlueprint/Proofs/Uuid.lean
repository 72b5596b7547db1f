import CourseBlueprint.Uuid

/-!
# Identifiers read back

The hyphenated form of an identifier is read as the identifier (`ofText?_hyphenated`).
-/

namespace CourseBlueprint

namespace Text.Hex

theorem mem_write {c : Char} {n v : Nat} (h : c ∈ write n v) : ∃ d, d < 16 ∧ c = digit d := by
  induction n generalizing v with
  | zero => simp [write] at h
  | succ n ih =>
    rcases List.mem_append.1 h with h | h
    · exact ih h
    · exact ⟨v % 16, Nat.mod_lt _ (by decide), List.mem_singleton.1 h⟩

theorem digit_ne_brace : ∀ d, d < 16 → digit d ≠ '\x7b' := by decide

end Text.Hex

namespace Uuid

/-- The parts between hyphens, taken out again. -/
theorem take_drop_hyphens {a b c d e : List Char} (ha : a.length = 8) (hb : b.length = 4)
    (hc : c.length = 4) (hd : d.length = 4) {cs : List Char}
    (hcs : cs = a ++ '-' :: (b ++ '-' :: (c ++ '-' :: (d ++ '-' :: e)))) :
    cs.take 8 ++ ((cs.drop 9).take 4 ++ ((cs.drop 14).take 4 ++ ((cs.drop 19).take 4 ++
      cs.drop 24))) = a ++ (b ++ (c ++ (d ++ e))) := by
  subst hcs
  simp (disch := omega) [List.drop_append, List.drop_eq_nil_of_le, ha, hb, hc, hd]

theorem parts (ds : List Char) :
    ds.take 8 ++ ((ds.drop 8).take 4 ++ ((ds.drop 12).take 4 ++ ((ds.drop 16).take 4 ++
      ds.drop 20))) = ds := by
  have h16 : (ds.drop 16).take 4 ++ ds.drop 20 = ds.drop 16 := by
    simpa using List.take_append_drop 4 (ds.drop 16)
  have h12 : (ds.drop 12).take 4 ++ ds.drop 16 = ds.drop 12 := by
    simpa using List.take_append_drop 4 (ds.drop 12)
  have h8 : (ds.drop 8).take 4 ++ ds.drop 12 = ds.drop 8 := by
    simpa using List.take_append_drop 4 (ds.drop 8)
  rw [h16, h12, h8, List.take_append_drop]

theorem ofHyphenated?_hyphenate {ds : List Char} (h : ds.length = 32) :
    ofHyphenated? (hyphenate ds) = ofDigits? ds := by
  have hparts := take_drop_hyphens (a := ds.take 8) (b := (ds.drop 8).take 4)
    (c := (ds.drop 12).take 4) (d := (ds.drop 16).take 4) (e := ds.drop 20) (by simp [h])
    (by simp [h]) (by simp [h]) (by simp [h]) (rfl : hyphenate ds = _)
  rw [parts] at hparts
  simp only [ofHyphenated?, hparts, if_true]

/-- The hyphenated form reads back. -/
theorem ofText?_hyphenated (u : Uuid) : ofText? u.hyphenated = some u := by
  have hlen : u.digits.length = 32 := length_digits u
  have h36 : (hyphenate u.digits).length = 36 := by simp [hyphenate]
  have hread : ofHyphenated? (hyphenate u.digits) = some u := by
    rw [ofHyphenated?_hyphenate hlen, ofDigits?_digits]
  have hurn : (List.take 9 (hyphenate u.digits)).map Char.toLower ≠ "urn:uuid:".toList := by
    intro h
    have h8 := congrArg (fun cs => cs[8]?) h
    simp [hyphenate, List.take_append, hlen] at h8
  obtain ⟨c, ds, hds⟩ : ∃ c ds, u.digits = c :: ds := by
    cases hd : u.digits with
    | nil => simp [hd] at hlen
    | cons c ds => exact ⟨c, ds, rfl⟩
  have hbrace : ∀ rest, hyphenate u.digits ≠ '\x7b' :: rest := by
    intro rest heq
    obtain ⟨d, hd, rfl⟩ := Text.Hex.mem_write (show c ∈ Text.Hex.write 32 u.bits.toNat by
      show c ∈ u.digits
      simp [hds])
    rw [hyphenate, hds] at heq
    exact Text.Hex.digit_ne_brace d hd (List.cons.inj heq).1
  rw [hyphenated, ofText?, String.toList_ofList, ofChars?.eq_def, if_neg (by omega)]
  split
  · next heq => exact absurd heq (hbrace _)
  · rw [if_neg hurn, hread]

end Uuid

end CourseBlueprint
