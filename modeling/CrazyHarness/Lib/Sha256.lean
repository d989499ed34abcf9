import CrazyHarness.Lib.Framing

/-! # SHA-256

The digest of a byte string: the padded bytes are taken in blocks of sixteen words, and each block is mixed
into the eight words of the state. -/

namespace Lib

/-- A word. -/
abbrev Word := BitVec 32

/-- The fractional parts of the square roots of the first primes. -/
def initialWords : List Word :=
  [0x6a09e667, 0xbb67ae85, 0x3c6ef372, 0xa54ff53a, 0x510e527f, 0x9b05688c, 0x1f83d9ab, 0x5be0cd19]

/-- The fractional parts of their cube roots. -/
def roundConstants : List Word :=
  [0x428a2f98, 0x71374491, 0xb5c0fbcf, 0xe9b5dba5, 0x3956c25b, 0x59f111f1, 0x923f82a4, 0xab1c5ed5,
    0xd807aa98, 0x12835b01, 0x243185be, 0x550c7dc3, 0x72be5d74, 0x80deb1fe, 0x9bdc06a7, 0xc19bf174,
    0xe49b69c1, 0xefbe4786, 0x0fc19dc6, 0x240ca1cc, 0x2de92c6f, 0x4a7484aa, 0x5cb0a9dc, 0x76f988da,
    0x983e5152, 0xa831c66d, 0xb00327c8, 0xbf597fc7, 0xc6e00bf3, 0xd5a79147, 0x06ca6351, 0x14292967,
    0x27b70a85, 0x2e1b2138, 0x4d2c6dfc, 0x53380d13, 0x650a7354, 0x766a0abb, 0x81c2c92e, 0x92722c85,
    0xa2bfe8a1, 0xa81a664b, 0xc24b8b70, 0xc76c51a3, 0xd192e819, 0xd6990624, 0xf40e3585, 0x106aa070,
    0x19a4c116, 0x1e376c08, 0x2748774c, 0x34b0bcb5, 0x391c0cb3, 0x4ed8aa4a, 0x5b9cca4f, 0x682e6ff3,
    0x748f82ee, 0x78a5636f, 0x84c87814, 0x8cc70208, 0x90befffa, 0xa4506ceb, 0xbef9a3f7, 0xc67178f2]

/-! ### Blocks -/

/-- The word whose bytes these are, the highest first. -/
def wordOf (bytes : Bytes) : Word := bytes.foldl (fun w b => (w <<< 8) ||| BitVec.ofNat 32 b.toNat) 0

/-- The bytes in pieces of `k`, the last one perhaps shorter. -/
def pieces (k : ℕ) : ℕ → Bytes → List Bytes
  | 0, _ => []
  | n + 1, bytes => bytes.take k :: pieces k n (bytes.drop k)

/-- A one, zeros, and the number of bits in eight bytes: a multiple of sixty-four bytes. -/
def padded (message : Bytes) : Bytes :=
  message ++ 0x80 :: List.replicate ((119 - message.length % 64) % 64) 0 ++ digitsOf 8 (8 * message.length)

/-- Sixteen words a block. -/
def blocksOf (message : Bytes) : List (List Word) :=
  let bytes := padded message
  (pieces 64 (bytes.length / 64) bytes).map (fun block => (pieces 4 16 block).map wordOf)

/-! ### Rounds -/

/-- The next word of the schedule after these, the newest first. -/
def nextWord : List Word → Word
  | [_, w2, _, _, _, _, w7, _, _, _, _, _, _, _, w15, w16] =>
      let s0 := w15.rotateRight 7 ^^^ w15.rotateRight 18 ^^^ (w15 >>> 3)
      let s1 := w2.rotateRight 17 ^^^ w2.rotateRight 19 ^^^ (w2 >>> 10)
      s1 + w7 + s0 + w16
  | _ => 0

/-- The schedule from the last sixteen words on, the newest first. -/
def schedule : ℕ → List Word → List Word
  | 0, window => window.reverse
  | n + 1, window => window.getLastD 0 :: schedule n (nextWord window :: window.dropLast)

/-- One round. -/
def round (constant word : Word) : List Word → List Word
  | [a, b, c, d, e, f, g, h] =>
      let s1 := e.rotateRight 6 ^^^ e.rotateRight 11 ^^^ e.rotateRight 25
      let choice := (e &&& f) ^^^ (~~~e &&& g)
      let t1 := h + s1 + choice + constant + word
      let s0 := a.rotateRight 2 ^^^ a.rotateRight 13 ^^^ a.rotateRight 22
      let majority := (a &&& b) ^^^ (a &&& c) ^^^ (b &&& c)
      [t1 + (s0 + majority), a, b, c, d + t1, e, f, g]
  | state => state

/-- A block is mixed into the state. -/
def compress (state block : List Word) : List Word :=
  let mixed := (roundConstants.zip (schedule 48 block.reverse)).foldl (fun s x => round x.1 x.2 s) state
  List.zipWith (· + ·) state mixed

/-- The digest. -/
@[irreducible] def sha256 (message : Bytes) : BitVec 256 :=
  ((blocksOf message).foldl compress initialWords).foldl (fun d w => (d <<< 32) ||| w.setWidth 256) 0

example : sha256 [] = 0xe3b0c44298fc1c149afbf4c8996fb92427ae41e4649b934ca495991b7852b855 := by decide +kernel

end Lib
