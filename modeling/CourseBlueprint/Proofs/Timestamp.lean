import CourseBlueprint.Timestamp

/-!
# Times read back

A time that clocks show is a date: a valid day and time of day. The written form of a date is read
as the date (`ofText?_text`), and whatever is read is one (`isDate_of_ofChars?`).
-/

namespace CourseBlueprint

/-! ## Digits -/

namespace Text.Decimal

theorem isDigit_digit : ∀ v, v < 10 → (digit v).isDigit = true := by decide

theorem isDigit_of_mem_write {c : Char} {n v : Nat} (h : c ∈ write n v) : c.isDigit = true := by
  induction n generalizing v with
  | zero => simp [write] at h
  | succ n ih =>
    rcases List.mem_append.1 h with h | h
    · exact ih h
    · rw [List.mem_singleton.1 h]
      exact isDigit_digit _ (Nat.mod_lt _ (by decide))

theorem takeWhile_digits {ds : List Char} (h : ∀ c ∈ ds, c.isDigit = true) :
    ds.takeWhile Char.isDigit = ds := by
  induction ds with
  | nil => rfl
  | cons d ds ih =>
    rw [List.takeWhile_cons_of_pos (h d List.mem_cons_self),
      ih fun c hc => h c (List.mem_cons_of_mem _ hc)]

/-- Digits in front of something else are cut off as they are. -/
theorem split_append {ds rest : List Char} (h : ∀ c ∈ ds, c.isDigit = true)
    (hrest : ∀ c cs, rest = c :: cs → c.isDigit = false) : split (ds ++ rest) = (ds, rest) := by
  induction ds with
  | nil =>
    cases rest with
    | nil => rfl
    | cons c cs => simp [split, hrest c cs rfl]
  | cons d ds ih =>
    have hd : d.isDigit = true := h d List.mem_cons_self
    have := ih fun c hc => h c (List.mem_cons_of_mem _ hc)
    simp only [split, Prod.mk.injEq] at this
    simp [split, hd, this.1, this.2]

theorem splitAtMost_append {n : Nat} {ds rest : List Char} (h : ∀ c ∈ ds, c.isDigit = true)
    (hn : ds.length = n) : splitAtMost n (ds ++ rest) = (ds, rest) := by
  simp [splitAtMost, ← hn, takeWhile_digits h]

theorem value_toDigits (n : Nat) : value (Nat.toDigits 10 n) = n :=
  Nat.ofDigitChars_ten_toDigits

theorem value_zeros_append (k : Nat) (ds : List Char) :
    value (List.replicate k '0' ++ ds) = value ds := by
  induction k with
  | zero => rfl
  | succ k ih => exact ih

end Text.Decimal

/-- No digit is blank. -/
theorem Text.isBlank_of_isDigit {c : Char} (h : c.isDigit = true) : Text.isBlank c = false := by
  have hc : 48 ≤ c.toNat ∧ c.toNat ≤ 57 := by
    simp only [Char.isDigit, Bool.and_eq_true, decide_eq_true_eq] at h
    exact h
  simp only [isBlank, blankRanges, List.any_cons, List.any_nil, Bool.or_false, Bool.or_eq_false_iff,
    Bool.and_eq_false_iff, decide_eq_false_iff_not]
  omega

theorem Text.trimLeft_digits {ds rest : List Char} (h : ∀ c ∈ ds, c.isDigit = true) (hne : ds ≠ []) :
    Text.trimLeft (ds ++ rest) = ds ++ rest := by
  cases ds with
  | nil => exact absurd rfl hne
  | cons d ds => exact trimLeft_of_not_blank (isBlank_of_isDigit (h d List.mem_cons_self))

namespace Timestamp

/-- Whether a time is one that clocks show. -/
structure IsDate (t : Timestamp) : Prop where
  valid : t.isValid = true
  nanosecond_lt : t.nanosecond < 1000000000

/-! ## Parts of a date -/

theorem number?_append {n : Nat} {ds rest : List Char} (h : ∀ c ∈ ds, c.isDigit = true)
    (hn : ds.length = n) (hne : ds ≠ []) :
    number? n (ds ++ rest) = some (Text.Decimal.value ds, rest) := by
  rw [number?, Text.trimLeft_digits h hne, Text.Decimal.splitAtMost_append h hn]
  split
  · next heq => exact absurd (congrArg Prod.fst heq) hne
  · next heq => obtain ⟨rfl, rfl⟩ := Prod.mk.inj heq; rfl

theorem number?_write {n v : Nat} (hn : n ≠ 0) (hv : v < Nat.pow 10 n) (rest : List Char) :
    number? n (Text.Decimal.write n v ++ rest) = some (v, rest) := by
  have hlen : (Text.Decimal.write n v).length = n := Text.Decimal.length_write n v
  have hne : Text.Decimal.write n v ≠ [] := by
    intro h
    rw [h] at hlen
    exact hn hlen.symm
  rw [number?_append (fun c => Text.Decimal.isDigit_of_mem_write) hlen hne, Text.Decimal.value_write,
    Nat.mod_eq_of_lt hv]

theorem mark?_cons {c : Char} (h : Text.isBlank c = false) (rest : List Char) :
    mark? c (c :: rest) = some rest := by
  simp [mark?, Text.trimLeft_of_not_blank h]

theorem year?_yearText (year : Int) (rest : List Char)
    (hrest : ∀ c cs, rest = c :: cs → c.isDigit = false) :
    year? (yearText year ++ rest) = some (year, rest) := by
  unfold yearText
  split
  · next h =>
    have hdigits : ∀ c ∈ Text.Decimal.write 4 year.toNat, c.isDigit = true :=
      fun c => Text.Decimal.isDigit_of_mem_write
    have hlen := Text.Decimal.length_write 4 year.toNat
    obtain ⟨d, ds, hd⟩ : ∃ d ds, Text.Decimal.write 4 year.toNat = d :: ds := by
      cases hw : Text.Decimal.write 4 year.toNat with
      | nil => rw [hw] at hlen; cases hlen
      | cons d ds => exact ⟨d, ds, rfl⟩
    have hlt : year.toNat < Nat.pow 10 4 := by
      show year.toNat < 10000
      omega
    have hread := number?_write (by decide) hlt rest
    have hd' : d.isDigit = true := hdigits d (by rw [hd]; exact List.mem_cons_self)
    rw [year?.eq_def, Text.trimLeft_digits hdigits (by rw [hd]; simp)]
    split
    · next heq =>
      rw [hd] at heq
      rw [(List.cons.inj heq).1] at hd'
      cases hd'
    · next heq =>
      rw [hd] at heq
      rw [(List.cons.inj heq).1] at hd'
      cases hd'
    · rw [hread]
      simp; omega
  · next h =>
    have hdigits : ∀ c ∈ List.replicate (4 - (Nat.toDigits 10 year.natAbs).length) '0' ++
        Nat.toDigits 10 year.natAbs, c.isDigit = true := by
      intro c hc
      rcases List.mem_append.1 hc with hc | hc
      · rw [List.eq_of_mem_replicate hc]; rfl
      · exact Nat.isDigit_of_mem_toDigits (by decide) (by decide) hc
    have hread : year?.unblanked? (List.replicate (4 - (Nat.toDigits 10 year.natAbs).length) '0' ++
        Nat.toDigits 10 year.natAbs ++ rest) = some (year.natAbs, rest) := by
      rw [year?.unblanked?, Text.Decimal.split_append hdigits hrest]
      split
      · next heq =>
        have := congrArg Prod.fst heq
        simp [Nat.toDigits_ne_nil] at this
      · next heq =>
        obtain ⟨rfl, rfl⟩ := Prod.mk.inj heq
        rw [Text.Decimal.value_zeros_append, Text.Decimal.value_toDigits]
    by_cases hneg : year < 0
    · simp only [if_pos hneg, List.cons_append]
      rw [year?, Text.trimLeft_of_not_blank (by decide)]
      simp only [hread, Option.map_some, Option.some.injEq, Prod.mk.injEq, and_true]
      omega
    · simp only [if_neg hneg, List.cons_append]
      rw [year?, Text.trimLeft_of_not_blank (by decide)]
      simp only [hread, Option.map_some, Option.some.injEq, Prod.mk.injEq, and_true]
      omega

/-! ## Fractions -/

/-- The digits of a fraction count from the left. -/
theorem value_append_zeros (ds : List Char) (k : Nat) :
    Text.Decimal.value (ds ++ List.replicate k '0') = Text.Decimal.value ds * Nat.pow 10 k := by
  induction k with
  | zero => simp
  | succ k ih =>
    rw [List.replicate_succ', ← List.append_assoc, Text.Decimal.value, List.foldl_append]
    show 10 * Text.Decimal.value (ds ++ List.replicate k '0') + 0 = _
    rw [ih]
    show 10 * (Text.Decimal.value ds * Nat.pow 10 k) = Text.Decimal.value ds * (Nat.pow 10 k * 10)
    rw [Nat.mul_comm 10, Nat.mul_assoc]

theorem fraction?_write {n v : Nat} (hn : n ≠ 0) (hle : n ≤ 9) (hv : v < Nat.pow 10 n) {rest : List Char}
    (hrest : ∀ c cs, rest = c :: cs → c.isDigit = false) :
    fraction? ('.' :: (Text.Decimal.write n v ++ rest)) = some (v * Nat.pow 10 (9 - n), rest) := by
  have hlen : (Text.Decimal.write n v).length = n := Text.Decimal.length_write n v
  rw [fraction?, Text.Decimal.split_append (fun c => Text.Decimal.isDigit_of_mem_write) hrest]
  split
  · next heq =>
    rw [(Prod.mk.inj heq).1] at hlen
    exact absurd hlen.symm hn
  · next heq =>
    obtain ⟨rfl, rfl⟩ := Prod.mk.inj heq
    have htake : (Text.Decimal.write n v ++ List.replicate 9 '0').take 9 =
        Text.Decimal.write n v ++ List.replicate (9 - n) '0' := by
      rw [List.take_append, hlen, List.take_of_length_le (by omega), List.take_replicate,
        Nat.min_eq_left (by omega)]
    rw [htake, value_append_zeros, Text.Decimal.value_write, Nat.mod_eq_of_lt hv]

theorem fraction?_fractionText {nanosecond : Nat} (h : nanosecond < 1000000000) {rest : List Char}
    (hrest : ∀ c cs, rest = c :: cs → c.isDigit = false)
    (hdot : ∀ cs, rest ≠ '.' :: cs) :
    fraction? (fractionText nanosecond ++ rest) = some (nanosecond, rest) := by
  unfold fractionText
  split
  · next hzero =>
    subst hzero
    rw [List.nil_append, fraction?.eq_def]
    split
    · next heq => exact absurd rfl (hdot _)
    · rfl
  · split
    · have hlt : nanosecond / 1000000 < Nat.pow 10 3 := by
        show nanosecond / 1000000 < 1000
        omega
      have hvalue : nanosecond / 1000000 * 1000000 = nanosecond := by omega
      rw [List.cons_append, fraction?_write (by decide) (by decide) hlt hrest]
      exact congrArg (fun n => some (n, rest)) hvalue
    · split
      · have hlt : nanosecond / 1000 < Nat.pow 10 6 := by
          show nanosecond / 1000 < 1000000
          omega
        have hvalue : nanosecond / 1000 * 1000 = nanosecond := by omega
        rw [List.cons_append, fraction?_write (by decide) (by decide) hlt hrest]
        exact congrArg (fun n => some (n, rest)) hvalue
      · rw [List.cons_append, fraction?_write (by decide) (by decide) h hrest]
        exact congrArg (fun n => some (n, rest)) (Nat.mul_one nanosecond)

/-! ## Moving to universal time -/

theorem isValid_iff {t : Timestamp} : t.isValid = true ↔ yearInRange t.year = true ∧
    1 ≤ t.month ∧ t.month ≤ 12 ∧ 1 ≤ t.day ∧ t.day ≤ daysIn t.year t.month ∧
      t.hour ≤ 23 ∧ t.minute ≤ 59 ∧ t.second ≤ 60 := by
  simp [isValid, and_assoc]

theorem one_le_daysIn (year : Int) (month : Nat) : 1 ≤ daysIn year month := by
  unfold daysIn
  split
  · split <;> decide
  · split <;> decide

theorem ofLocal_zero {t : Timestamp} (h : t.isValid = true) : ofLocal t 0 = t := by
  obtain ⟨-, -, -, -, -, hhour, hminute, -⟩ := isValid_iff.1 h
  have hneg : ¬ (60 * (t.hour : Int) + t.minute - 0 < 0) := by omega
  have hlt : 60 * (t.hour : Int) + t.minute - 0 < 1440 := by omega
  have hh : ((60 * (t.hour : Int) + t.minute - 0) % 1440).toNat / 60 = t.hour := by omega
  have hm : ((60 * (t.hour : Int) + t.minute - 0) % 1440).toNat % 60 = t.minute := by omega
  rw [ofLocal]
  simp only [if_neg hneg, if_pos hlt, hh, hm]

theorem dayBefore_isValid {t : Timestamp} (h : t.isValid = true)
    (hyear : yearInRange t.dayBefore.year = true) : t.dayBefore.isValid = true := by
  obtain ⟨hy, hm, hm', hd, hd', htime⟩ := isValid_iff.1 h
  unfold dayBefore at hyear ⊢
  split
  · next hday => exact isValid_iff.2 ⟨hy, hm, hm', by show 1 ≤ t.day - 1; omega,
      by show t.day - 1 ≤ daysIn t.year t.month; omega, htime⟩
  · next hday =>
    rw [if_neg hday] at hyear
    split
    · next hmonth => exact isValid_iff.2 ⟨hy, by show 1 ≤ t.month - 1; omega,
        by show t.month - 1 ≤ 12; omega, one_le_daysIn _ _, Nat.le_refl _, htime⟩
    · next hmonth =>
      rw [if_neg hmonth] at hyear
      exact isValid_iff.2 ⟨hyear, (by decide : 1 ≤ 12), Nat.le_refl 12,
        (by decide : 1 ≤ 31), Nat.le_refl 31, htime⟩

theorem dayAfter_isValid {t : Timestamp} (h : t.isValid = true)
    (hyear : yearInRange t.dayAfter.year = true) : t.dayAfter.isValid = true := by
  obtain ⟨hy, hm, hm', hd, hd', htime⟩ := isValid_iff.1 h
  unfold dayAfter at hyear ⊢
  split
  · next hday => exact isValid_iff.2 ⟨hy, hm, hm', by show 1 ≤ t.day + 1; omega,
      by show t.day + 1 ≤ daysIn t.year t.month; omega, htime⟩
  · next hday =>
    rw [if_neg hday] at hyear
    split
    · next hmonth => exact isValid_iff.2 ⟨hy, by show 1 ≤ t.month + 1; omega,
        by show t.month + 1 ≤ 12; omega, Nat.le_refl 1, one_le_daysIn _ _, htime⟩
    · next hmonth =>
      rw [if_neg hmonth] at hyear
      exact isValid_iff.2 ⟨hyear, Nat.le_refl 1, (by decide : 1 ≤ 12), Nat.le_refl 1,
        one_le_daysIn _ _, htime⟩

theorem ofLocal_isValid {t : Timestamp} {ahead : Int} (h : t.isValid = true)
    (hyear : yearInRange (ofLocal t ahead).year = true) : (ofLocal t ahead).isValid = true := by
  have hmoved : ∀ minutes : Int, ({ t with
      hour := (minutes % 1440).toNat / 60
      minute := (minutes % 1440).toNat % 60 } : Timestamp).isValid = true := by
    intro minutes
    obtain ⟨hy, hm, hm', hd, hd', -, -, hs⟩ := isValid_iff.1 h
    exact isValid_iff.2 ⟨hy, hm, hm', hd, hd', by show _ / 60 ≤ 23; omega,
      by show _ % 60 ≤ 59; omega, hs⟩
  unfold ofLocal at hyear ⊢
  simp only at hyear ⊢
  split
  · next hneg =>
    rw [if_pos hneg] at hyear
    exact dayBefore_isValid (hmoved _) hyear
  · next hneg =>
    rw [if_neg hneg] at hyear
    split
    · exact hmoved _
    · next hlt =>
      rw [if_neg hlt] at hyear
      exact dayAfter_isValid (hmoved _) hyear

theorem ofLocal_nanosecond (t : Timestamp) (ahead : Int) :
    (ofLocal t ahead).nanosecond = t.nanosecond := by
  unfold ofLocal dayBefore dayAfter
  simp only
  split
  · split
    · rfl
    · split <;> rfl
  · split
    · rfl
    · split
      · rfl
      · split <;> rfl

theorem digitValue_le {c : Char} (h : c.isDigit = true) : Text.Decimal.digitValue c ≤ 9 := by
  simp only [Char.isDigit, Bool.and_eq_true, decide_eq_true_eq] at h
  have : c.toNat ≤ 57 := h.2
  show c.toNat - 48 ≤ 9
  omega

theorem foldl_digits_lt {ds : List Char} (h : ∀ c ∈ ds, c.isDigit = true) (acc : Nat) :
    ds.foldl (fun acc c => 10 * acc + Text.Decimal.digitValue c) acc <
      (acc + 1) * Nat.pow 10 ds.length := by
  induction ds generalizing acc with
  | nil => simp
  | cons d ds ih =>
    have hd := digitValue_le (h d List.mem_cons_self)
    have hle : (10 * acc + Text.Decimal.digitValue d + 1) * Nat.pow 10 ds.length ≤
        (acc + 1) * 10 * Nat.pow 10 ds.length := Nat.mul_le_mul_right _ (by omega)
    have hds := ih (fun c hc => h c (List.mem_cons_of_mem _ hc)) (10 * acc + Text.Decimal.digitValue d)
    have hpow : (acc + 1) * 10 * Nat.pow 10 ds.length = (acc + 1) * Nat.pow 10 (ds.length + 1) := by
      show _ = (acc + 1) * (Nat.pow 10 ds.length * 10)
      rw [Nat.mul_comm (Nat.pow 10 ds.length), Nat.mul_assoc]
    rw [List.foldl_cons, List.length_cons, ← hpow]
    exact Nat.lt_of_lt_of_le hds hle

theorem value_lt {ds : List Char} (h : ∀ c ∈ ds, c.isDigit = true) :
    Text.Decimal.value ds < Nat.pow 10 ds.length := by
  have := foldl_digits_lt h 0
  rwa [Nat.zero_add, Nat.one_mul] at this

theorem fraction?_lt {cs rest : List Char} {n : Nat} (h : fraction? cs = some (n, rest)) :
    n < 1000000000 := by
  rw [fraction?.eq_def] at h
  split at h
  · split at h
    · cases h
    · next ds rest' _ heq =>
      obtain ⟨rfl, rfl⟩ := Prod.mk.inj (Option.some.inj h)
      have hds : ∀ c ∈ ds, c.isDigit = true := by
        rw [← (Prod.mk.inj heq).1]
        intro c hc
        exact (List.all_eq_true.1 List.all_takeWhile) c hc
      have hdigits : ∀ c ∈ (ds ++ List.replicate 9 '0').take 9, c.isDigit = true := by
        intro c hc
        rcases List.mem_append.1 (List.mem_of_mem_take hc) with hc | hc
        · exact hds c hc
        · rw [List.eq_of_mem_replicate hc]; rfl
      have hlength : ((ds ++ List.replicate 9 '0').take 9).length ≤ 9 := by
        rw [List.length_take]
        exact Nat.min_le_left _ _
      have hpow : Nat.pow 10 ((ds ++ List.replicate 9 '0').take 9).length ≤ Nat.pow 10 9 :=
        Nat.pow_le_pow_right (by decide) hlength
      exact Nat.lt_of_lt_of_le (value_lt hdigits) hpow
  · obtain ⟨rfl, rfl⟩ := Prod.mk.inj (Option.some.inj h)
    decide

/-! ## Top theorems -/

/-- A date that is written is read as itself. -/
theorem ofChars?_toChars {t : Timestamp} (h : t.IsDate) : ofChars? t.toChars = some t := by
  obtain ⟨hy, hm, hm', hd, hd', hh, hmin, hs⟩ := isValid_iff.1 h.valid
  have hday : t.day < 100 := by
    have : daysIn t.year t.month ≤ 31 := by
      unfold daysIn
      split
      · split <;> decide
      · split <;> decide
    omega
  have hdash : ∀ cs c cs', '-' :: cs = c :: cs' → c.isDigit = false := by
    intro cs c cs' h
    rw [← (List.cons.inj h).1]; rfl
  have hZ : ∀ c cs', ['Z'] = c :: cs' → c.isDigit = false := by
    intro c cs' h
    rw [← (List.cons.inj h).1]; rfl
  have hmark : ∀ rest, mark? '-' ('-' :: rest) = some rest := mark?_cons (by decide)
  have hcolon : ∀ rest, mark? ':' (':' :: rest) = some rest := mark?_cons (by decide)
  have hfraction : fraction? (fractionText t.nanosecond ++ ['Z']) = some (t.nanosecond, ['Z']) :=
    fraction?_fractionText h.nanosecond_lt hZ (by simp)
  have hzone : offset? (Text.trimLeft ['Z']) = some (0, []) := by decide
  have htwo : ∀ {v : Nat}, v < 100 → ∀ rest,
      number? 2 (Text.Decimal.write 2 v ++ rest) = some (v, rest) :=
    fun hv rest => number?_write (by decide) hv rest
  refine Option.bind_eq_some_iff.2 ⟨_, year?_yearText _ _ (hdash _), ?_⟩
  refine Option.bind_eq_some_iff.2 ⟨_, hmark _, ?_⟩
  refine Option.bind_eq_some_iff.2 ⟨_, htwo (by omega : t.month < 100) _, ?_⟩
  refine Option.bind_eq_some_iff.2 ⟨_, hmark _, ?_⟩
  refine Option.bind_eq_some_iff.2 ⟨_, htwo hday _, ?_⟩
  refine Option.bind_eq_some_iff.2 ⟨_, rfl, ?_⟩
  refine Option.bind_eq_some_iff.2 ⟨_, htwo (by omega : t.hour < 100) _, ?_⟩
  refine Option.bind_eq_some_iff.2 ⟨_, hcolon _, ?_⟩
  refine Option.bind_eq_some_iff.2 ⟨_, htwo (by omega : t.minute < 100) _, ?_⟩
  refine Option.bind_eq_some_iff.2 ⟨_, hcolon _, ?_⟩
  refine Option.bind_eq_some_iff.2 ⟨_, htwo (by omega : t.second < 100) _, ?_⟩
  refine Option.bind_eq_some_iff.2 ⟨_, hfraction, ?_⟩
  refine Option.bind_eq_some_iff.2 ⟨_, hzone, ?_⟩
  simp only
  rw [ofLocal_zero h.valid, h.valid, hy]
  rfl

/-- What is read is a date. -/
theorem isDate_of_ofChars? {cs : List Char} {t : Timestamp} (h : ofChars? cs = some t) :
    t.IsDate := by
  obtain ⟨⟨year, cs⟩, -, h⟩ := Option.bind_eq_some_iff.1 h
  obtain ⟨cs, -, h⟩ := Option.bind_eq_some_iff.1 h
  obtain ⟨⟨month, cs⟩, -, h⟩ := Option.bind_eq_some_iff.1 h
  obtain ⟨cs, -, h⟩ := Option.bind_eq_some_iff.1 h
  obtain ⟨⟨day, cs⟩, -, h⟩ := Option.bind_eq_some_iff.1 h
  obtain ⟨cs, -, h⟩ := Option.bind_eq_some_iff.1 h
  obtain ⟨⟨hour, cs⟩, -, h⟩ := Option.bind_eq_some_iff.1 h
  obtain ⟨cs, -, h⟩ := Option.bind_eq_some_iff.1 h
  obtain ⟨⟨minute, cs⟩, -, h⟩ := Option.bind_eq_some_iff.1 h
  obtain ⟨cs, -, h⟩ := Option.bind_eq_some_iff.1 h
  obtain ⟨⟨second, cs⟩, -, h⟩ := Option.bind_eq_some_iff.1 h
  obtain ⟨⟨nanosecond, cs⟩, hfraction, h⟩ := Option.bind_eq_some_iff.1 h
  obtain ⟨⟨ahead, cs⟩, -, h⟩ := Option.bind_eq_some_iff.1 h
  simp only at h
  split at h
  · next hvalid =>
    simp only [Bool.and_eq_true] at hvalid
    rw [← Option.some.inj h]
    refine ⟨ofLocal_isValid hvalid.1.1 hvalid.1.2, ?_⟩
    rw [ofLocal_nanosecond]
    exact fraction?_lt hfraction
  · cases h

theorem ofText?_text {t : Timestamp} (h : t.IsDate) : ofText? t.text = some t := by
  rw [ofText?, text, String.toList_ofList, ofChars?_toChars h]

end Timestamp

end CourseBlueprint
