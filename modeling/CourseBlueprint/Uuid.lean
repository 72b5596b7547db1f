import CourseBlueprint.Text.Hex

/-!
# Universally unique identifiers

A `Uuid` is a number of 128 bits. It is written as 32 hexadecimal digits (`simple`) or with hyphens
after the 8th, 12th, 16th and 20th digit (`hyphenated`). Reading also takes the hyphenated form in
braces or behind `urn:uuid:`, all of it in either case.
-/

namespace CourseBlueprint

/-- A number of 128 bits that names one thing. -/
structure Uuid where
  bits : BitVec 128
deriving DecidableEq, Inhabited

namespace Uuid

/-! ## Text -/

/-- The 32 digits. -/
def digits (u : Uuid) : List Char := Text.Hex.write 32 u.bits.toNat

/-- Hyphens after the 8th, 12th, 16th and 20th character. -/
def hyphenate (ds : List Char) : List Char :=
  ds.take 8 ++ '-' :: ((ds.drop 8).take 4 ++ '-' :: ((ds.drop 12).take 4 ++
    '-' :: ((ds.drop 16).take 4 ++ '-' :: ds.drop 20)))

/-- The identifier as 32 digits. -/
def simple (u : Uuid) : String := String.ofList u.digits

/-- The identifier with hyphens, its usual form. -/
def hyphenated (u : Uuid) : String := String.ofList (hyphenate u.digits)

instance : ToString Uuid := ⟨hyphenated⟩

/-- Reads 32 digits. -/
def ofDigits? (cs : List Char) : Option Uuid :=
  if cs.length = 32 then (Text.Hex.read? cs).map fun v => ⟨BitVec.ofNat 128 v⟩ else none

/-- Reads digits with hyphens at the places where they are written, and nowhere else. -/
def ofHyphenated? (cs : List Char) : Option Uuid :=
  let ds := cs.take 8 ++ ((cs.drop 9).take 4 ++ ((cs.drop 14).take 4 ++ ((cs.drop 19).take 4 ++
    cs.drop 24)))
  if cs = hyphenate ds then ofDigits? ds else none

/-- Reads any of the four forms. -/
def ofChars? (cs : List Char) : Option Uuid :=
  if cs.length = 32 then ofDigits? cs
  else match cs with
    | '{' :: rest =>
      if rest.getLast? = some '}' then ofHyphenated? rest.dropLast else none
    | cs =>
      if (cs.take 9).map Char.toLower = "urn:uuid:".toList then ofHyphenated? (cs.drop 9)
      else ofHyphenated? cs

/-- Reads any of the four forms. -/
def ofText? (text : String) : Option Uuid := ofChars? text.toList

/-! ## Order and bytes -/

/-- The order of the bytes, which is that of the numbers. -/
def le (u v : Uuid) : Bool := u.bits.toNat ≤ v.bits.toNat

/-- The sixteen bytes, the most significant first. -/
def bytes (u : Uuid) : List UInt8 :=
  (List.range 16).map fun i => UInt8.ofNat (u.bits.toNat >>> (8 * (15 - i)))

/-- The identifier with the given sixteen bytes. -/
def ofBytes (bs : List UInt8) : Uuid :=
  ⟨BitVec.ofNat 128 (bs.foldl (fun acc b => 256 * acc + b.toNat) 0)⟩

/-- The identifier marked as one of the given version, in the usual variant. -/
def withVersion (version : Nat) (u : Uuid) : Uuid :=
  let n := u.bits
  let cleared := n &&& ~~~((0xf : BitVec 128) <<< 76) &&& ~~~((0x3 : BitVec 128) <<< 62)
  ⟨cleared ||| (BitVec.ofNat 128 version <<< 76) ||| ((0x2 : BitVec 128) <<< 62)⟩

/-! ## Lemmas -/

@[simp] theorem length_digits (u : Uuid) : u.digits.length = 32 := Text.Hex.length_write 32 _

/-- Different identifiers have different digits. -/
theorem digits_inj {u v : Uuid} (h : u.digits = v.digits) : u = v := by
  obtain ⟨a⟩ := u
  obtain ⟨b⟩ := v
  have ha : a.toNat < Nat.pow 16 32 := a.isLt
  have hb : b.toNat < Nat.pow 16 32 := b.isLt
  exact congrArg Uuid.mk (BitVec.eq_of_toNat_eq (Text.Hex.write_inj ha hb h))

/-- The 32 digits of an identifier read back. -/
theorem ofDigits?_digits (u : Uuid) : ofDigits? u.digits = some u := by
  obtain ⟨a⟩ := u
  have ha : a.toNat < Nat.pow 16 32 := a.isLt
  simp only [ofDigits?, length_digits, if_pos]
  rw [digits, Text.Hex.read?_write, Nat.mod_eq_of_lt ha]
  simp

end Uuid

end CourseBlueprint
