/-!
# Decimal numerals

`write n v` is the text of `v` with exactly `n` digits, `value` the number written by a list of
digits, and `split` cuts a text after the digits it starts with.
-/

namespace CourseBlueprint.Text.Decimal

/-- The digit of a value below ten. -/
def digit (v : Nat) : Char := Char.ofNat ('0'.toNat + v)

/-- The last `n` digits of a number, the most significant first. -/
def write : Nat → Nat → List Char
  | 0, _ => []
  | n + 1, v => write n (v / 10) ++ [digit (v % 10)]

/-- The value of one digit. -/
def digitValue (c : Char) : Nat := c.toNat - '0'.toNat

/-- The number written by a list of digits. -/
def value (cs : List Char) : Nat := cs.foldl (fun acc c => 10 * acc + digitValue c) 0

/-- The digits a text starts with, and the rest. -/
def split (cs : List Char) : List Char × List Char :=
  (cs.takeWhile Char.isDigit, cs.dropWhile Char.isDigit)

/-- The digits a text starts with, `most` of them at most, and the rest. -/
def splitAtMost (most : Nat) (cs : List Char) : List Char × List Char :=
  let ds := (cs.take most).takeWhile Char.isDigit
  (ds, cs.drop ds.length)

/-! ## Lemmas -/

theorem digitValue_digit : ∀ v, v < 10 → digitValue (digit v) = v := by decide

@[simp] theorem length_write (n v : Nat) : (write n v).length = n := by
  induction n generalizing v with
  | zero => rfl
  | succ n ih => simp [write, ih]

/-- What is written with `n` digits has the value of the number modulo `10 ^ n`. -/
theorem value_write (n v : Nat) : value (write n v) = v % Nat.pow 10 n := by
  induction n generalizing v with
  | zero => simp [write, value, Nat.mod_one]
  | succ n ih =>
    have hd : v % 10 < 10 := Nat.mod_lt _ (by decide)
    rw [write, value, List.foldl_append]
    show 10 * value (write n (v / 10)) + digitValue (digit (v % 10)) = _
    rw [ih, digitValue_digit _ hd]
    show 10 * (v / 10 % Nat.pow 10 n) + v % 10 = v % (Nat.pow 10 n * 10)
    rw [Nat.mul_comm (Nat.pow 10 n) 10, Nat.mod_mul]
    omega

end CourseBlueprint.Text.Decimal
