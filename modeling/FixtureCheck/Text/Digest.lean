import FixtureCheck.Number.Power
import FixtureCheck.Text.Quoted

/-!
# Digests of texts

`digest` is the SHA-256 digest of a list of bytes, as eight words of 32 bits. `fingerprint` writes the first sixteen
hexadecimal digits of the digest of a text's UTF-8 bytes.
-/

namespace FixtureCheck.Text

/-- The fractional parts of the cube roots of the first 64 primes. -/
def roundConstants : List UInt32 := [
  0x428a2f98, 0x71374491, 0xb5c0fbcf, 0xe9b5dba5, 0x3956c25b, 0x59f111f1, 0x923f82a4, 0xab1c5ed5,
  0xd807aa98, 0x12835b01, 0x243185be, 0x550c7dc3, 0x72be5d74, 0x80deb1fe, 0x9bdc06a7, 0xc19bf174,
  0xe49b69c1, 0xefbe4786, 0x0fc19dc6, 0x240ca1cc, 0x2de92c6f, 0x4a7484aa, 0x5cb0a9dc, 0x76f988da,
  0x983e5152, 0xa831c66d, 0xb00327c8, 0xbf597fc7, 0xc6e00bf3, 0xd5a79147, 0x06ca6351, 0x14292967,
  0x27b70a85, 0x2e1b2138, 0x4d2c6dfc, 0x53380d13, 0x650a7354, 0x766a0abb, 0x81c2c92e, 0x92722c85,
  0xa2bfe8a1, 0xa81a664b, 0xc24b8b70, 0xc76c51a3, 0xd192e819, 0xd6990624, 0xf40e3585, 0x106aa070,
  0x19a4c116, 0x1e376c08, 0x2748774c, 0x34b0bcb5, 0x391c0cb3, 0x4ed8aa4a, 0x5b9cca4f, 0x682e6ff3,
  0x748f82ee, 0x78a5636f, 0x84c87814, 0x8cc70208, 0x90befffa, 0xa4506ceb, 0xbef9a3f7, 0xc67178f2]

/-- The eight words that a digest is made of. -/
structure DigestWords where
  a : UInt32
  b : UInt32
  c : UInt32
  d : UInt32
  e : UInt32
  f : UInt32
  g : UInt32
  h : UInt32
  deriving DecidableEq, Repr

/-- The fractional parts of the square roots of the first eight primes. -/
def DigestWords.first : DigestWords :=
  ⟨0x6a09e667, 0xbb67ae85, 0x3c6ef372, 0xa54ff53a, 0x510e527f, 0x9b05688c, 0x1f83d9ab, 0x5be0cd19⟩

/-- The sums word by word. -/
def DigestWords.add (x y : DigestWords) : DigestWords :=
  ⟨x.a + y.a, x.b + y.b, x.c + y.c, x.d + y.d, x.e + y.e, x.f + y.f, x.g + y.g, x.h + y.h⟩

/-- A word turned to the right. -/
def rotated (x : UInt32) (n : UInt32) : UInt32 := (x >>> n) ||| (x <<< (32 - n))

/-- The bytes of a message with the end mark and the length in bits, a multiple of 64. -/
def paddedBytes (bytes : List UInt8) : List UInt8 :=
  let zeros := (119 - bytes.length % 64) % 64
  bytes ++ [0x80] ++ List.replicate zeros 0 ++
    (List.range 8).map fun i => UInt8.ofNat (8 * bytes.length / twoPow (8 * (7 - i)))

/-- Four bytes at a time as words. -/
def wordsOf : List UInt8 → List UInt32
  | a :: b :: c :: d :: rest =>
    ((a.toUInt32 <<< 24) ||| (b.toUInt32 <<< 16) ||| (c.toUInt32 <<< 8) ||| d.toUInt32) :: wordsOf rest
  | _ => []

/-- The words of the rounds, made from the sixteen words of a block. -/
def roundWords (block : List UInt32) : List UInt32 :=
  ((List.range 48).foldl (fun (w : Array UInt32) t =>
    let x := w.getD (t + 1) 0
    let y := w.getD (t + 14) 0
    w.push (w.getD t 0 + (rotated x 7 ^^^ rotated x 18 ^^^ (x >>> 3)) + w.getD (t + 9) 0 +
      (rotated y 17 ^^^ rotated y 19 ^^^ (y >>> 10)))) block.toArray).toList

/-- One round. -/
def digestRound (s : DigestWords) (constant word : UInt32) : DigestWords :=
  let up := s.h + (rotated s.e 6 ^^^ rotated s.e 11 ^^^ rotated s.e 25) + ((s.e &&& s.f) ^^^ (~~~ s.e &&& s.g)) +
    constant + word
  let down := (rotated s.a 2 ^^^ rotated s.a 13 ^^^ rotated s.a 22) +
    ((s.a &&& s.b) ^^^ (s.a &&& s.c) ^^^ (s.b &&& s.c))
  ⟨up + down, s.a, s.b, s.c, s.d + up, s.e, s.f, s.g⟩

/-- The words after one more block. -/
def digestBlock (s : DigestWords) (block : List UInt32) : DigestWords :=
  s.add ((roundConstants.zip (roundWords block)).foldl (fun s (constant, word) => digestRound s constant word) s)

/-- The words after all blocks. -/
def digestBlocks (s : DigestWords) (words : List UInt32) : DigestWords :=
  match words with
  | [] => s
  | word :: rest => digestBlocks (digestBlock s (word :: rest.take 15)) (rest.drop 15)
termination_by words.length
decreasing_by simp only [List.length_drop, List.length_cons]; omega

/-- The digest of some bytes. -/
def digest (bytes : List UInt8) : DigestWords := digestBlocks .first (wordsOf (paddedBytes bytes))

/-- The first sixteen hexadecimal digits of a text's digest. -/
def fingerprint (text : String) : String :=
  let words := digest text.toUTF8.toList
  String.ofList (hex 8 words.a.toNat ++ hex 8 words.b.toNat)

end FixtureCheck.Text
