import RecordQuery.Bytes

/-!
The hash function SHA-256 on lists of bytes. A message is padded to whole blocks of sixteen words,
each block is expanded to 64 words, and the words are mixed into a state of eight. Every step is a
list recursion, so closed messages can be hashed by evaluation.
-/

namespace RecordQuery.Sha256

def rotateRight (word : UInt32) (amount : UInt32) : UInt32 :=
  (word >>> amount) ||| (word <<< (32 - amount))

/-- The first 32 bits of the fractional parts of the cube roots of the first 64 primes. -/
def roundConstants : List UInt32 :=
  [0x428a2f98, 0x71374491, 0xb5c0fbcf, 0xe9b5dba5, 0x3956c25b, 0x59f111f1, 0x923f82a4, 0xab1c5ed5,
   0xd807aa98, 0x12835b01, 0x243185be, 0x550c7dc3, 0x72be5d74, 0x80deb1fe, 0x9bdc06a7, 0xc19bf174,
   0xe49b69c1, 0xefbe4786, 0x0fc19dc6, 0x240ca1cc, 0x2de92c6f, 0x4a7484aa, 0x5cb0a9dc, 0x76f988da,
   0x983e5152, 0xa831c66d, 0xb00327c8, 0xbf597fc7, 0xc6e00bf3, 0xd5a79147, 0x06ca6351, 0x14292967,
   0x27b70a85, 0x2e1b2138, 0x4d2c6dfc, 0x53380d13, 0x650a7354, 0x766a0abb, 0x81c2c92e, 0x92722c85,
   0xa2bfe8a1, 0xa81a664b, 0xc24b8b70, 0xc76c51a3, 0xd192e819, 0xd6990624, 0xf40e3585, 0x106aa070,
   0x19a4c116, 0x1e376c08, 0x2748774c, 0x34b0bcb5, 0x391c0cb3, 0x4ed8aa4a, 0x5b9cca4f, 0x682e6ff3,
   0x748f82ee, 0x78a5636f, 0x84c87814, 0x8cc70208, 0x90befffa, 0xa4506ceb, 0xbef9a3f7, 0xc67178f2]

structure State where
  a : UInt32
  b : UInt32
  c : UInt32
  d : UInt32
  e : UInt32
  f : UInt32
  g : UInt32
  h : UInt32
  deriving DecidableEq, Repr

/-- The first 32 bits of the fractional parts of the square roots of the first eight primes. -/
def State.initial : State :=
  ⟨0x6a09e667, 0xbb67ae85, 0x3c6ef372, 0xa54ff53a, 0x510e527f, 0x9b05688c, 0x1f83d9ab, 0x5be0cd19⟩

def State.words (s : State) : List UInt32 := [s.a, s.b, s.c, s.d, s.e, s.f, s.g, s.h]

def State.add (s t : State) : State :=
  ⟨s.a + t.a, s.b + t.b, s.c + t.c, s.d + t.d, s.e + t.e, s.f + t.f, s.g + t.g, s.h + t.h⟩

/-- One round, with the sum of a round constant and a word of the expanded block. -/
def State.round (s : State) (input : UInt32) : State :=
  let s1 := rotateRight s.e 6 ^^^ rotateRight s.e 11 ^^^ rotateRight s.e 25
  let choice := (s.e &&& s.f) ^^^ ((~~~s.e) &&& s.g)
  let t1 := s.h + s1 + choice + input
  let s0 := rotateRight s.a 2 ^^^ rotateRight s.a 13 ^^^ rotateRight s.a 22
  let majority := (s.a &&& s.b) ^^^ (s.a &&& s.c) ^^^ (s.b &&& s.c)
  ⟨t1 + (s0 + majority), s.a, s.b, s.c, s.d + t1, s.e, s.f, s.g⟩

/-- The message with a set bit, zeros up to eight bytes short of a whole block, and its length in
bits. -/
def padded (message : List UInt8) : List UInt8 :=
  message ++ 0x80 :: List.replicate ((119 - message.length % 64) % 64) 0
    ++ Bytes.bigEndian 8 (8 * message.length)

def words : List UInt8 → List UInt32
  | a :: b :: c :: d :: rest => UInt32.ofNat (Bytes.ofBigEndian [a, b, c, d]) :: words rest
  | _ => []

/-- Adds `count` words to an expansion, which is kept with its newest word in front. -/
def expand : Nat → List UInt32 → List UInt32
  | 0, newestFirst => newestFirst
  | count + 1, newestFirst =>
    let early := newestFirst.getD 14 0
    let late := newestFirst.getD 1 0
    let s0 := rotateRight early 7 ^^^ rotateRight early 18 ^^^ (early >>> 3)
    let s1 := rotateRight late 17 ^^^ rotateRight late 19 ^^^ (late >>> 10)
    expand count ((newestFirst.getD 15 0 + s0 + newestFirst.getD 6 0 + s1) :: newestFirst)

def compress (state : State) (block : List UInt32) : State :=
  let expanded := (expand 48 block.reverse).reverse
  state.add <| (roundConstants.zip expanded).foldl (fun s pair => s.round (pair.1 + pair.2)) state

/-- Compresses the first `count` blocks of sixteen words. -/
def compressBlocks : Nat → State → List UInt32 → State
  | 0, state, _ => state
  | count + 1, state, rest => compressBlocks count (compress state (rest.take 16)) (rest.drop 16)

/-- The 32 bytes of the hash. -/
def hash (message : List UInt8) : List UInt8 :=
  let input := words (padded message)
  (compressBlocks (input.length / 16) .initial input).words.flatMap fun word =>
    Bytes.bigEndian 4 word.toNat

end RecordQuery.Sha256
