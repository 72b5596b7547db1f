/-!
# The SHA-1 digest

`digest` maps a message of bytes to twenty bytes. The message is padded to whole blocks of sixteen
words of 32 bits; each block is stretched to eighty words, and each word moves a state of five words
by one round.
-/

namespace CourseBlueprint.Digest.Sha1

/-- The five words that a block moves. -/
structure State where
  a : UInt32
  b : UInt32
  c : UInt32
  d : UInt32
  e : UInt32

/-- The state before the first block. -/
def State.initial : State :=
  ⟨0x67452301, 0xefcdab89, 0x98badcfe, 0x10325476, 0xc3d2e1f0⟩

/-- The bits of a word moved to the left by `n`, those that fall out coming in on the right. -/
def rotate (n : UInt32) (w : UInt32) : UInt32 := (w <<< n) ||| (w >>> (32 - n))

/-- The last `n` bytes of a number, the most significant first. -/
def bigEndian : Nat → Nat → List UInt8
  | 0, _ => []
  | n + 1, v => bigEndian n (v / 256) ++ [UInt8.ofNat (v % 256)]

/-- The message, a set bit, the least number of zeros that fills a block, and the bit length. -/
def pad (message : List UInt8) : List UInt8 :=
  let zeros := (119 - message.length % 64) % 64
  message ++ 0x80 :: List.replicate zeros 0 ++ bigEndian 8 (8 * message.length)

/-- Four bytes at a time as one word. -/
def words : List UInt8 → List UInt32
  | a :: b :: c :: d :: rest =>
    (a.toUInt32 <<< 24 ||| b.toUInt32 <<< 16 ||| c.toUInt32 <<< 8 ||| d.toUInt32) :: words rest
  | _ => []

/-- The first `n` pieces of sixteen words. -/
def blocks : Nat → List UInt32 → List (List UInt32)
  | 0, _ => []
  | n + 1, ws => ws.take 16 :: blocks n (ws.drop 16)

/-- Adds `n` words to a schedule whose newest word comes first. -/
def extend : Nat → List UInt32 → List UInt32
  | 0, ws => ws
  | n + 1, ws =>
    let next := ws.getD 2 0 ^^^ ws.getD 7 0 ^^^ ws.getD 13 0 ^^^ ws.getD 15 0
    extend n (rotate 1 next :: ws)

/-- The eighty words of a block. -/
def schedule (block : List UInt32) : List UInt32 := (extend 64 block.reverse).reverse

/-- The mixing function and the constant of a round. -/
def mix (round : Nat) (s : State) : UInt32 :=
  if round < 20 then (s.b &&& s.c ||| ~~~s.b &&& s.d) + 0x5a827999
  else if round < 40 then (s.b ^^^ s.c ^^^ s.d) + 0x6ed9eba1
  else if round < 60 then (s.b &&& s.c ||| s.b &&& s.d ||| s.c &&& s.d) + 0x8f1bbcdc
  else (s.b ^^^ s.c ^^^ s.d) + 0xca62c1d6

/-- One round. -/
def step (s : State) (round : Nat) (word : UInt32) : State :=
  ⟨rotate 5 s.a + mix round s + s.e + word, s.a, rotate 30 s.b, s.c, s.d⟩

/-- One block. -/
def absorb (s : State) (block : List UInt32) : State :=
  let t := (schedule block).zipIdx.foldl (fun t (word, round) => step t round word) s
  ⟨s.a + t.a, s.b + t.b, s.c + t.c, s.d + t.d, s.e + t.e⟩

/-- The twenty bytes of a message's digest. -/
def digest (message : List UInt8) : List UInt8 :=
  let padded := pad message
  let s := (blocks (padded.length / 64) (words padded)).foldl absorb State.initial
  [s.a, s.b, s.c, s.d, s.e].flatMap fun w => bigEndian 4 w.toNat

end CourseBlueprint.Digest.Sha1
