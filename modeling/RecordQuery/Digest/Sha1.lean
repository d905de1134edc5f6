/-!
# SHA-1

The secure hash algorithm with digests of 160 bits, on lists of bytes.
-/

namespace RecordQuery.Digest.Sha1

structure State where
  a : UInt32
  b : UInt32
  c : UInt32
  d : UInt32
  e : UInt32
deriving DecidableEq

def start : State := ⟨0x67452301, 0xEFCDAB89, 0x98BADCFE, 0x10325476, 0xC3D2E1F0⟩

def rotateLeft (x n : UInt32) : UInt32 := (x <<< n) ||| (x >>> (32 - n))

def bigEndian (count n : Nat) : List UInt8 :=
  (List.range count).reverse.map fun i => (n >>> (8 * i)).toUInt8

/-- A one bit, zeros, and the length in bits, up to a whole number of blocks. -/
def pad (message : List UInt8) : List UInt8 :=
  let length := message.length
  -- One byte and the zeros fill a block up to its last eight bytes.
  message ++ 0x80 :: List.replicate ((119 - length % 64) % 64) 0 ++ bigEndian 8 (8 * length)

def wordsOf : List UInt8 → List UInt32
  | a :: b :: c :: d :: rest =>
    (a.toUInt32 <<< 24 ||| b.toUInt32 <<< 16 ||| c.toUInt32 <<< 8 ||| d.toUInt32) :: wordsOf rest
  | _ => []

/-- The words of a block, then each word from the ones 3, 8, 14 and 16 places before it; the
latest word is first. -/
def extend (latest : List UInt32) : Nat → List UInt32
  | 0 => latest
  | count + 1 =>
    let back (i : Nat) := latest.getD i 0
    extend (rotateLeft (back 2 ^^^ back 7 ^^^ back 13 ^^^ back 15) 1 :: latest) count

def schedule (block : List UInt32) : List UInt32 := (extend block.reverse 64).reverse

def roundParts (round : Nat) (b c d : UInt32) : UInt32 × UInt32 :=
  if round < 20 then ((b &&& c) ||| (~~~b &&& d), 0x5A827999)
  else if round < 40 then (b ^^^ c ^^^ d, 0x6ED9EBA1)
  else if round < 60 then ((b &&& c) ||| (b &&& d) ||| (c &&& d), 0x8F1BBCDC)
  else (b ^^^ c ^^^ d, 0xCA62C1D6)

def step (s : State) (word : UInt32) (round : Nat) : State :=
  let (f, k) := roundParts round s.b s.c s.d
  ⟨rotateLeft s.a 5 + f + s.e + k + word, s.a, rotateLeft s.b 30, s.c, s.d⟩

def compress (s : State) (block : List UInt32) : State :=
  let t := (schedule block).zipIdx.foldl (fun s (word, round) => step s word round) s
  ⟨s.a + t.a, s.b + t.b, s.c + t.c, s.d + t.d, s.e + t.e⟩

def absorb (s : State) (words : List UInt32) : State :=
  if h : words.length < 16 then s
  else
    have : (words.drop 16).length < words.length := by rw [List.length_drop]; omega
    absorb (compress s (words.take 16)) (words.drop 16)
termination_by words.length

def hex (message : List UInt8) : String :=
  let s := absorb start (wordsOf (pad message))
  let digits := [s.a, s.b, s.c, s.d, s.e].flatMap fun word => bigEndian 4 word.toNat
  String.ofList (digits.flatMap fun byte =>
    [Nat.digitChar (byte.toNat / 16), Nat.digitChar (byte.toNat % 16)])

end RecordQuery.Digest.Sha1
