import RemoteGuard.Bytes

/-!
# SHA-2

`sha256` and `sha512` differ in the width of their words, the number of rounds and six triples of
distances; a `Variant` holds these, and one compression function serves both.  A word is kept in 64
bits, of which the narrow variant leaves the upper half zero.  The constants of the narrow variant
are the upper halves of those of the wide one, so there is one table of each.

A message is followed by `padding` up to whole blocks of sixteen words; each block is extended to a
schedule of one word a round, which is mixed into the state of eight words.
-/

namespace RemoteGuard.Sha2

/-- upper 64 bits of the fractional parts of the cube roots of the first eighty primes -/
def roundWords : List UInt64 :=
  [0x428a2f98d728ae22, 0x7137449123ef65cd, 0xb5c0fbcfec4d3b2f, 0xe9b5dba58189dbbc,
   0x3956c25bf348b538, 0x59f111f1b605d019, 0x923f82a4af194f9b, 0xab1c5ed5da6d8118,
   0xd807aa98a3030242, 0x12835b0145706fbe, 0x243185be4ee4b28c, 0x550c7dc3d5ffb4e2,
   0x72be5d74f27b896f, 0x80deb1fe3b1696b1, 0x9bdc06a725c71235, 0xc19bf174cf692694,
   0xe49b69c19ef14ad2, 0xefbe4786384f25e3, 0x0fc19dc68b8cd5b5, 0x240ca1cc77ac9c65,
   0x2de92c6f592b0275, 0x4a7484aa6ea6e483, 0x5cb0a9dcbd41fbd4, 0x76f988da831153b5,
   0x983e5152ee66dfab, 0xa831c66d2db43210, 0xb00327c898fb213f, 0xbf597fc7beef0ee4,
   0xc6e00bf33da88fc2, 0xd5a79147930aa725, 0x06ca6351e003826f, 0x142929670a0e6e70,
   0x27b70a8546d22ffc, 0x2e1b21385c26c926, 0x4d2c6dfc5ac42aed, 0x53380d139d95b3df,
   0x650a73548baf63de, 0x766a0abb3c77b2a8, 0x81c2c92e47edaee6, 0x92722c851482353b,
   0xa2bfe8a14cf10364, 0xa81a664bbc423001, 0xc24b8b70d0f89791, 0xc76c51a30654be30,
   0xd192e819d6ef5218, 0xd69906245565a910, 0xf40e35855771202a, 0x106aa07032bbd1b8,
   0x19a4c116b8d2d0c8, 0x1e376c085141ab53, 0x2748774cdf8eeb99, 0x34b0bcb5e19b48a8,
   0x391c0cb3c5c95a63, 0x4ed8aa4ae3418acb, 0x5b9cca4f7763e373, 0x682e6ff3d6b2b8a3,
   0x748f82ee5defb2fc, 0x78a5636f43172f60, 0x84c87814a1f0ab72, 0x8cc702081a6439ec,
   0x90befffa23631e28, 0xa4506cebde82bde9, 0xbef9a3f7b2c67915, 0xc67178f2e372532b,
   0xca273eceea26619c, 0xd186b8c721c0c207, 0xeada7dd6cde0eb1e, 0xf57d4f7fee6ed178,
   0x06f067aa72176fba, 0x0a637dc5a2c898a6, 0x113f9804bef90dae, 0x1b710b35131c471b,
   0x28db77f523047d84, 0x32caab7b40c72493, 0x3c9ebe0a15c9bebc, 0x431d67c49c100d4c,
   0x4cc5d4becb3e42b6, 0x597f299cfc657e2a, 0x5fcb6fab3ad6faec, 0x6c44198c4a475817]

/-- upper 64 bits of the fractional parts of the square roots of the first eight primes -/
def initialWords : List UInt64 :=
  [0x6a09e667f3bcc908, 0xbb67ae8584caa73b, 0x3c6ef372fe94f82b, 0xa54ff53a5f1d36f1,
   0x510e527fade682d1, 0x9b05688c2b3e6c1f, 0x1f83d9abfb41bd6b, 0x5be0cd19137e2179]

/-- three distances by which a word is rotated or shifted -/
structure Distances where
  first : UInt64
  second : UInt64
  third : UInt64

/-- what the two variants differ in -/
structure Variant where
  /-- octets in a word -/
  octets : Nat
  /-- bits in a word -/
  bits : UInt64
  /-- the word of ones -/
  mask : UInt64
  rounds : Nat
  /-- rotations mixed into the first word of the state -/
  sum0 : Distances
  /-- rotations mixed into the fifth word of the state -/
  sum1 : Distances
  /-- two rotations and a shift that extend the schedule -/
  sigma0 : Distances
  sigma1 : Distances

def narrow : Variant where
  octets := 4
  bits := 32
  mask := 0xffffffff
  rounds := 64
  sum0 := ⟨2, 13, 22⟩
  sum1 := ⟨6, 11, 25⟩
  sigma0 := ⟨7, 18, 3⟩
  sigma1 := ⟨17, 19, 10⟩

def wide : Variant where
  octets := 8
  bits := 64
  mask := 0xffffffffffffffff
  rounds := 80
  sum0 := ⟨28, 34, 39⟩
  sum1 := ⟨14, 18, 41⟩
  sigma0 := ⟨1, 8, 7⟩
  sigma1 := ⟨19, 61, 6⟩

structure State where
  a : UInt64
  b : UInt64
  c : UInt64
  d : UInt64
  e : UInt64
  f : UInt64
  g : UInt64
  h : UInt64
deriving DecidableEq, Repr, Inhabited

namespace State

def add (mask : UInt64) (s t : State) : State :=
  ⟨(s.a + t.a) &&& mask, (s.b + t.b) &&& mask, (s.c + t.c) &&& mask, (s.d + t.d) &&& mask,
   (s.e + t.e) &&& mask, (s.f + t.f) &&& mask, (s.g + t.g) &&& mask, (s.h + t.h) &&& mask⟩

def words (s : State) : List UInt64 := [s.a, s.b, s.c, s.d, s.e, s.f, s.g, s.h]

end State

namespace Variant

/-- octets in a block of sixteen words -/
def blockOctets (v : Variant) : Nat := 16 * v.octets

/-- the upper bits of a 64-bit word, as many as a word has -/
def upper (v : Variant) (x : UInt64) : UInt64 := x >>> (64 - v.bits)

def constants (v : Variant) : List UInt64 := (roundWords.take v.rounds).map v.upper

def initial (v : Variant) : State :=
  let word (i : Nat) : UInt64 := v.upper (initialWords.getD i 0)
  ⟨word 0, word 1, word 2, word 3, word 4, word 5, word 6, word 7⟩

/-- Rotates a word to the right by at least one bit. -/
def rotate (v : Variant) (n x : UInt64) : UInt64 := ((x >>> n) ||| (x <<< (v.bits - n))) &&& v.mask

def rotations (v : Variant) (r : Distances) (x : UInt64) : UInt64 :=
  v.rotate r.first x ^^^ v.rotate r.second x ^^^ v.rotate r.third x

def extension (v : Variant) (r : Distances) (x : UInt64) : UInt64 :=
  v.rotate r.first x ^^^ v.rotate r.second x ^^^ (x >>> r.third)

/-! ## blocks -/

/-- the `n` octets of `k`, the most significant first -/
def bigEndian (n k : Nat) : Bytes :=
  (List.range n).map fun i => UInt8.ofNat (k >>> (8 * (n - 1 - i)))

/-- What follows a message: a one bit, zero bits, and the length of the message in bits as a number
of two words, so that the whole is made of blocks. -/
def padding (v : Variant) (length : Nat) : Bytes :=
  let zeros := (14 * v.octets + v.blockOctets - 1 - length % v.blockOctets) % v.blockOctets
  0x80 :: List.replicate zeros 0 ++ bigEndian (2 * v.octets) (8 * length)

/-- Reads `n` octets into a word, after those that are in it. -/
def takeWord : Nat → UInt64 → Bytes → UInt64 × Bytes
  | 0, word, bs => (word, bs)
  | _, word, [] => (word, [])
  | n + 1, word, b :: bs => takeWord n ((word <<< 8) ||| b.toUInt64) bs

def takeWords (v : Variant) : Nat → Array UInt64 → Bytes → Array UInt64 × Bytes
  | 0, words, bs => (words, bs)
  | n + 1, words, bs =>
    let (word, rest) := takeWord v.octets 0 bs
    takeWords v n (words.push word) rest

/-! ## compression -/

/-- Extends a schedule of at least sixteen words by `n` words. -/
def extend (v : Variant) : Nat → Array UInt64 → Array UInt64
  | 0, words => words
  | n + 1, words =>
    let ago (i : Nat) : UInt64 := words.getD (words.size - i) 0
    extend v n (words.push
      ((v.extension v.sigma1 (ago 2) + ago 7 + v.extension v.sigma0 (ago 15) + ago 16) &&& v.mask))

def round (v : Variant) (k x : UInt64) (s : State) : State :=
  let choice := (s.e &&& s.f) ^^^ (~~~s.e &&& s.g)
  let majority := (s.a &&& s.b) ^^^ (s.a &&& s.c) ^^^ (s.b &&& s.c)
  let t1 := s.h + v.rotations v.sum1 s.e + choice + k + x
  let t2 := v.rotations v.sum0 s.a + majority
  ⟨(t1 + t2) &&& v.mask, s.a, s.b, s.c, (s.d + t1) &&& v.mask, s.e, s.f, s.g⟩

/-- the rounds with the constants `ks`, the first of which is number `i` -/
def mix (v : Variant) (schedule : Array UInt64) : List UInt64 → Nat → State → State
  | [], _, s => s
  | k :: ks, i, s => mix v schedule ks (i + 1) (v.round k (schedule.getD i 0) s)

/-- Mixes a block into the state, `ks` being the constants. -/
def compress (v : Variant) (ks : List UInt64) (s : State) (block : Array UInt64) : State :=
  s.add v.mask (v.mix (v.extend (v.rounds - 16) block) ks 0 s)

/-- Mixes the next `n` blocks into the state. -/
def absorb (v : Variant) (ks : List UInt64) : Nat → Bytes → State → State × Bytes
  | 0, bs, s => (s, bs)
  | n + 1, bs, s =>
    let (block, rest) := v.takeWords 16 (Array.mkEmpty v.rounds) bs
    absorb v ks n rest (v.compress ks s block)

def digest (v : Variant) (message : Bytes) : Bytes :=
  let length := message.length
  let ks := v.constants
  let (s, rest) := v.absorb ks (length / v.blockOctets) message v.initial
  let last := rest ++ v.padding length
  let (s, _) := v.absorb ks (last.length / v.blockOctets) last s
  s.words.flatMap fun x => bigEndian v.octets x.toNat

end Variant

def sha256 (message : Bytes) : Bytes := narrow.digest message
def sha512 (message : Bytes) : Bytes := wide.digest message

end RemoteGuard.Sha2
