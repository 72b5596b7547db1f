/-!
# Hexadecimal numerals

`write n v` is the text of `v` with exactly `n` digits in lower case, and `read?` reads digits of
either case. What was written reads back as `v` modulo `16 ^ n` (`read?_write`).
-/

namespace CourseBlueprint.Text.Hex

/-- The digit of a value below sixteen. -/
def digit (v : Nat) : Char :=
  if v < 10 then Char.ofNat ('0'.toNat + v) else Char.ofNat ('a'.toNat + (v - 10))

/-- The value of a digit of either case. -/
def value? (c : Char) : Option Nat :=
  if '0' ≤ c ∧ c ≤ '9' then some (c.toNat - '0'.toNat)
  else if 'a' ≤ c ∧ c ≤ 'f' then some (c.toNat - 'a'.toNat + 10)
  else if 'A' ≤ c ∧ c ≤ 'F' then some (c.toNat - 'A'.toNat + 10)
  else none

/-- The last `n` digits of a number, the most significant first. -/
def write : Nat → Nat → List Char
  | 0, _ => []
  | n + 1, v => write n (v / 16) ++ [digit (v % 16)]

/-- Reads digits on, after `acc` was read. -/
def readFrom (acc : Nat) : List Char → Option Nat
  | [] => some acc
  | c :: rest => (value? c).bind fun d => readFrom (16 * acc + d) rest

/-- The number written by a list of digits; none if another character is among them. -/
def read? (cs : List Char) : Option Nat := readFrom 0 cs

/-! ## Lemmas -/

theorem value?_digit : ∀ v, v < 16 → value? (digit v) = some v := by decide

@[simp] theorem length_write (n v : Nat) : (write n v).length = n := by
  induction n generalizing v with
  | zero => rfl
  | succ n ih => simp [write, ih]

theorem readFrom_append (acc : Nat) (cs ds : List Char) :
    readFrom acc (cs ++ ds) = (readFrom acc cs).bind fun a => readFrom a ds := by
  induction cs generalizing acc with
  | nil => rfl
  | cons c cs ih =>
    simp only [List.cons_append, readFrom]
    cases value? c with
    | none => rfl
    | some d => exact ih _

theorem readFrom_write (n v : Nat) : readFrom 0 (write n v) = some (v % Nat.pow 16 n) := by
  induction n generalizing v with
  | zero => simp [write, readFrom, Nat.mod_one]
  | succ n ih =>
    rw [write, readFrom_append, ih]
    have hd : v % 16 < 16 := Nat.mod_lt _ (by decide)
    simp only [Option.bind_some, readFrom, value?_digit _ hd]
    show some (16 * (v / 16 % Nat.pow 16 n) + v % 16) = some (v % (Nat.pow 16 n * 16))
    rw [Nat.mul_comm (Nat.pow 16 n) 16, Nat.mod_mul]
    congr 1
    omega

/-- What is written with `n` digits reads back modulo `16 ^ n`. -/
theorem read?_write (n v : Nat) : read? (write n v) = some (v % Nat.pow 16 n) := readFrom_write n v

/-- Numbers below `16 ^ n` have different texts of `n` digits. -/
theorem write_inj {n v w : Nat} (hv : v < Nat.pow 16 n) (hw : w < Nat.pow 16 n)
    (h : write n v = write n w) : v = w := by
  have := congrArg read? h
  rw [read?_write, read?_write, Nat.mod_eq_of_lt hv, Nat.mod_eq_of_lt hw] at this
  exact Option.some.inj this

end CourseBlueprint.Text.Hex
