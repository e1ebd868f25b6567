import CodeAtlas.Text.Quoted

/-!
The secure hashes of 160 and of 256 bits, and the checksum of a content. They share words of 32 bits,
padding and blocks. A block of sixteen words is spread to one word for each round, and a new word depends
on the sixteen words before it alone: a window of sixteen words moves on by one word at a time.
-/

namespace CodeAtlas.Digest

def rotateLeft (x : UInt32) (n : UInt32) : UInt32 :=
  (x <<< n) ||| (x >>> (32 - n))

def rotateRight (x : UInt32) (n : UInt32) : UInt32 :=
  (x >>> n) ||| (x <<< (32 - n))

/-- The `count` bytes of a number, the most significant first. -/
def bigEndian (count n : Nat) : List UInt8 :=
  match count with
  | 0 => []
  | k + 1 => bigEndian k (n / 256) ++ [UInt8.ofNat (n % 256)]

/-- A message followed by a one bit, zeros up to 56 bytes modulo 64, and its length in bits. -/
def pad (message : List UInt8) : List UInt8 :=
  let size := message.length
  let zeros := (119 - size % 64) % 64
  message ++ (0x80 :: List.replicate zeros 0) ++ bigEndian 8 (size * 8)

def word (a b c d : UInt8) : UInt32 :=
  (a.toUInt32 <<< 24) ||| (b.toUInt32 <<< 16) ||| (c.toUInt32 <<< 8) ||| d.toUInt32

/-- Folds `step` over the blocks of sixteen words of a padded message. -/
def foldBlocks {σ : Type} (step : σ → Array UInt32 → σ) :
    List UInt8 → Array UInt32 → σ → σ
  | a :: b :: c :: d :: rest, block, state =>
      let block := block.push (word a b c d)
      if block.size = 16 then
        foldBlocks step rest #[] (step state block)
      else
        foldBlocks step rest block state
  | _, _, state => state

/-- The words that leave a window as it moves on `count` times, and those left in it then; `next` tells
the word that enters it. -/
def spread (next : List UInt32 → UInt32) : (count : Nat) → (window : List UInt32) → List UInt32
  | 0, window => window
  | _ + 1, [] => []
  | count + 1, w :: rest => w :: spread next count (rest ++ [next (w :: rest)])

def wordBytes (w : UInt32) : List UInt8 :=
  bigEndian 4 w.toNat

end CodeAtlas.Digest

/-! ### The hash of 160 bits -/

namespace CodeAtlas.Digest.Sha1

structure State where
  a : UInt32
  b : UInt32
  c : UInt32
  d : UInt32
  e : UInt32

def State.initial : State :=
  ⟨0x67452301, 0xEFCDAB89, 0x98BADCFE, 0x10325476, 0xC3D2E1F0⟩

def nextWord (window : List UInt32) : UInt32 :=
  let at' (k : Nat) := window[k]?.getD 0
  rotateLeft (at' 13 ^^^ at' 8 ^^^ at' 2 ^^^ at' 0) 1

def mix (round : Nat) (s : State) : UInt32 × UInt32 :=
  if round < 20 then ((s.b &&& s.c) ||| (~~~ s.b &&& s.d), 0x5A827999)
  else if round < 40 then (s.b ^^^ s.c ^^^ s.d, 0x6ED9EBA1)
  else if round < 60 then ((s.b &&& s.c) ||| (s.b &&& s.d) ||| (s.c &&& s.d), 0x8F1BBCDC)
  else (s.b ^^^ s.c ^^^ s.d, 0xCA62C1D6)

/-- A round with its word and its number. -/
def State.round (s : State) (word : UInt32 × Nat) : State :=
  let (f, k) := mix word.2 s
  ⟨rotateLeft s.a 5 + f + s.e + k + word.1, s.a, rotateLeft s.b 30, s.c, s.d⟩

def State.block (s : State) (block : Array UInt32) : State :=
  let t := (spread nextWord 64 block.toList).zipIdx.foldl State.round s
  ⟨s.a + t.a, s.b + t.b, s.c + t.c, s.d + t.d, s.e + t.e⟩

def digest (message : List UInt8) : List UInt8 :=
  let s := foldBlocks State.block (pad message) #[] State.initial
  [s.a, s.b, s.c, s.d, s.e].flatMap wordBytes

end CodeAtlas.Digest.Sha1

/-! ### The hash of 256 bits -/

namespace CodeAtlas.Digest.Sha256

def constants : List UInt32 := [
  0x428a2f98, 0x71374491, 0xb5c0fbcf, 0xe9b5dba5, 0x3956c25b, 0x59f111f1, 0x923f82a4, 0xab1c5ed5,
  0xd807aa98, 0x12835b01, 0x243185be, 0x550c7dc3, 0x72be5d74, 0x80deb1fe, 0x9bdc06a7, 0xc19bf174,
  0xe49b69c1, 0xefbe4786, 0x0fc19dc6, 0x240ca1cc, 0x2de92c6f, 0x4a7484aa, 0x5cb0a9dc, 0x76f988da,
  0x983e5152, 0xa831c66d, 0xb00327c8, 0xbf597fc7, 0xc6e00bf3, 0xd5a79147, 0x06ca6351, 0x14292967,
  0x27b70a85, 0x2e1b2138, 0x4d2c6dfc, 0x53380d13, 0x650a7354, 0x766a0abb, 0x81c2c92e, 0x92722c85,
  0xa2bfe8a1, 0xa81a664b, 0xc24b8b70, 0xc76c51a3, 0xd192e819, 0xd6990624, 0xf40e3585, 0x106aa070,
  0x19a4c116, 0x1e376c08, 0x2748774c, 0x34b0bcb5, 0x391c0cb3, 0x4ed8aa4a, 0x5b9cca4f, 0x682e6ff3,
  0x748f82ee, 0x78a5636f, 0x84c87814, 0x8cc70208, 0x90befffa, 0xa4506ceb, 0xbef9a3f7, 0xc67178f2]

structure State where
  a : UInt32
  b : UInt32
  c : UInt32
  d : UInt32
  e : UInt32
  f : UInt32
  g : UInt32
  h : UInt32

def State.initial : State :=
  ⟨0x6a09e667, 0xbb67ae85, 0x3c6ef372, 0xa54ff53a, 0x510e527f, 0x9b05688c, 0x1f83d9ab, 0x5be0cd19⟩

def nextWord (window : List UInt32) : UInt32 :=
  let at' (k : Nat) := window[k]?.getD 0
  let x := at' 1
  let y := at' 14
  let s₀ := rotateRight x 7 ^^^ rotateRight x 18 ^^^ (x >>> 3)
  let s₁ := rotateRight y 17 ^^^ rotateRight y 19 ^^^ (y >>> 10)
  at' 0 + s₀ + at' 9 + s₁

/-- A round with its word and its constant. -/
def State.round (s : State) (word : UInt32 × UInt32) : State :=
  let s₁ := rotateRight s.e 6 ^^^ rotateRight s.e 11 ^^^ rotateRight s.e 25
  let choice := (s.e &&& s.f) ^^^ (~~~ s.e &&& s.g)
  let t₁ := s.h + s₁ + choice + word.2 + word.1
  let s₀ := rotateRight s.a 2 ^^^ rotateRight s.a 13 ^^^ rotateRight s.a 22
  let majority := (s.a &&& s.b) ^^^ (s.a &&& s.c) ^^^ (s.b &&& s.c)
  ⟨t₁ + (s₀ + majority), s.a, s.b, s.c, s.d + t₁, s.e, s.f, s.g⟩

def State.block (s : State) (block : Array UInt32) : State :=
  let t := ((spread nextWord 48 block.toList).zip constants).foldl State.round s
  ⟨s.a + t.a, s.b + t.b, s.c + t.c, s.d + t.d, s.e + t.e, s.f + t.f, s.g + t.g, s.h + t.h⟩

def digest (message : List UInt8) : List UInt8 :=
  let s := foldBlocks State.block (pad message) #[] State.initial
  [s.a, s.b, s.c, s.d, s.e, s.f, s.g, s.h].flatMap wordBytes

end CodeAtlas.Digest.Sha256

namespace CodeAtlas

def hexOfBytes (bytes : List UInt8) : String :=
  bytes.foldl (fun out b => (out.push (hexDigit (b.toNat / 16))).push (hexDigit (b.toNat % 16))) ""

/-- The digest of a content in lower-case hexadecimal. -/
def checksum (content : List UInt8) : String :=
  hexOfBytes (Digest.Sha256.digest content)

end CodeAtlas
