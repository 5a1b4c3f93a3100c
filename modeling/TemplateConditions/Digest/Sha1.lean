import TemplateConditions.Text.Digits

/-!
# SHA-1

The 160-bit digest of a byte string, and its text of forty lower-case hexadecimal digits.
-/

namespace TemplateConditions.Digest.Sha1

/-- The five chaining words. -/
structure State where
  a : UInt32
  b : UInt32
  c : UInt32
  d : UInt32
  e : UInt32

def State.initial : State :=
  ⟨0x67452301, 0xefcdab89, 0x98badcfe, 0x10325476, 0xc3d2e1f0⟩

def State.add (s t : State) : State :=
  ⟨s.a + t.a, s.b + t.b, s.c + t.c, s.d + t.d, s.e + t.e⟩

def rotateLeft (x : UInt32) (n : UInt32) : UInt32 :=
  (x <<< n) ||| (x >>> (32 - n))

/-- The big-endian bytes of `n`, in a field of `width` bytes. -/
def bigEndian : Nat → Nat → List UInt8
  | 0, _ => []
  | width + 1, n => bigEndian width (n / 256) ++ [UInt8.ofNat (n % 256)]

/-- The message, a one bit, zeros up to eight bytes before a multiple of 64 bytes, and the length
of the message in bits. -/
def padded (message : List UInt8) : List UInt8 :=
  let zeros := (119 - message.length % 64) % 64
  message ++ 0x80 :: List.replicate zeros 0 ++ bigEndian 8 (8 * message.length)

/-- Four bytes at a time, big-endian. -/
def wordsOf : List UInt8 → List UInt32
  | a :: b :: c :: d :: rest =>
    ((a.toUInt32 <<< 24) ||| (b.toUInt32 <<< 16) ||| (c.toUInt32 <<< 8) ||| d.toUInt32)
      :: wordsOf rest
  | _ => []

/-- `count` further words of the schedule, where `recent` holds the last sixteen, newest first. -/
def extend : Nat → List UInt32 → List UInt32
  | 0, _ => []
  | count + 1, recent =>
    let word := rotateLeft
      (recent.getD 2 0 ^^^ recent.getD 7 0 ^^^ recent.getD 13 0 ^^^ recent.getD 15 0) 1
    word :: extend count (word :: recent.take 15)

/-- The eighty words of a block. -/
def schedule (block : List UInt32) : List UInt32 :=
  block ++ extend 64 block.reverse

/-- The mixing function and constant of a round. -/
def mix (round : Nat) (b c d : UInt32) : UInt32 × UInt32 :=
  if round < 20 then ((b &&& c) ||| (~~~b &&& d), 0x5a827999)
  else if round < 40 then (b ^^^ c ^^^ d, 0x6ed9eba1)
  else if round < 60 then ((b &&& c) ||| (b &&& d) ||| (c &&& d), 0x8f1bbcdc)
  else (b ^^^ c ^^^ d, 0xca62c1d6)

def step (s : State) (word : UInt32 × Nat) : State :=
  let (f, k) := mix word.2 s.b s.c s.d
  ⟨rotateLeft s.a 5 + f + s.e + k + word.1, s.a, rotateLeft s.b 30, s.c, s.d⟩

def compress (s : State) (block : List UInt32) : State :=
  s.add ((schedule block).zipIdx.foldl step s)

/-- Sixteen words at a time, for at most `blocks` blocks. -/
def absorb : Nat → State → List UInt32 → State
  | 0, s, _ => s
  | blocks + 1, s, words => absorb blocks (compress s (words.take 16)) (words.drop 16)

/-- The digest as five words. -/
def digest (message : List UInt8) : State :=
  let words := wordsOf (padded message)
  absorb (words.length / 16) .initial words

/-- The digest in lower-case hexadecimal. -/
def hexDigest (message : List UInt8) : String :=
  let s := digest message
  String.ofList ([s.a, s.b, s.c, s.d, s.e].flatMap fun word => Text.hexDigits 8 word.toNat)

end TemplateConditions.Digest.Sha1
