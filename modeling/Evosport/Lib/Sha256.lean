/-
SHA-256.

The hash function of FIPS 180-4 on byte arrays, and its usual rendering as sixty-four lowercase
hexadecimal digits.  Nothing is proved about the function itself: a development that relies on
its being hard to invert or to collide says so about the byte strings it hashes
(`NoCollision`), since no function onto finitely many digests is injective.
-/
import Mathlib.Algebra.Ring.Nat

namespace Lib

namespace Sha256

/-- The eight chaining words. -/
structure Chain where
  a : ℕ
  b : ℕ
  c : ℕ
  d : ℕ
  e : ℕ
  f : ℕ
  g : ℕ
  h : ℕ

/-- The fractional parts of the square roots of the first eight primes. -/
def initial : Chain :=
  ⟨0x6a09e667, 0xbb67ae85, 0x3c6ef372, 0xa54ff53a,
    0x510e527f, 0x9b05688c, 0x1f83d9ab, 0x5be0cd19⟩

/-- The fractional parts of the cube roots of the first sixty-four primes. -/
def roundConstants : List ℕ :=
  [0x428a2f98, 0x71374491, 0xb5c0fbcf, 0xe9b5dba5, 0x3956c25b, 0x59f111f1, 0x923f82a4, 0xab1c5ed5,
    0xd807aa98, 0x12835b01, 0x243185be, 0x550c7dc3, 0x72be5d74, 0x80deb1fe, 0x9bdc06a7, 0xc19bf174,
    0xe49b69c1, 0xefbe4786, 0x0fc19dc6, 0x240ca1cc, 0x2de92c6f, 0x4a7484aa, 0x5cb0a9dc, 0x76f988da,
    0x983e5152, 0xa831c66d, 0xb00327c8, 0xbf597fc7, 0xc6e00bf3, 0xd5a79147, 0x06ca6351, 0x14292967,
    0x27b70a85, 0x2e1b2138, 0x4d2c6dfc, 0x53380d13, 0x650a7354, 0x766a0abb, 0x81c2c92e, 0x92722c85,
    0xa2bfe8a1, 0xa81a664b, 0xc24b8b70, 0xc76c51a3, 0xd192e819, 0xd6990624, 0xf40e3585, 0x106aa070,
    0x19a4c116, 0x1e376c08, 0x2748774c, 0x34b0bcb5, 0x391c0cb3, 0x4ed8aa4a, 0x5b9cca4f, 0x682e6ff3,
    0x748f82ee, 0x78a5636f, 0x84c87814, 0x8cc70208, 0x90befffa, 0xa4506ceb, 0xbef9a3f7, 0xc67178f2]

/-- Addition of words. -/
def add (x y : ℕ) : ℕ := (x + y) % 2 ^ 32

/-- Rotation to the right by `n` bits, for `0 < n < 32`. -/
def rotr (x n : ℕ) : ℕ := (x >>> n) ||| (x <<< (32 - n)) % 2 ^ 32

/-- The first of the two mixing functions of a round. -/
def bigSigma0 (x : ℕ) : ℕ := rotr x 2 ^^^ rotr x 13 ^^^ rotr x 22

/-- The second of the two mixing functions of a round. -/
def bigSigma1 (x : ℕ) : ℕ := rotr x 6 ^^^ rotr x 11 ^^^ rotr x 25

/-- The first of the two mixing functions of the message schedule. -/
def smallSigma0 (x : ℕ) : ℕ := rotr x 7 ^^^ rotr x 18 ^^^ (x >>> 3)

/-- The second of the two mixing functions of the message schedule. -/
def smallSigma1 (x : ℕ) : ℕ := rotr x 17 ^^^ rotr x 19 ^^^ (x >>> 10)

/-- Each bit of the first word chooses the bit of one of the other two. -/
def ch (x y z : ℕ) : ℕ := (x &&& y) ^^^ ((x ^^^ 0xffffffff) &&& z)

/-- Each bit is the one that most of the three words have. -/
def maj (x y z : ℕ) : ℕ := (x &&& y) ^^^ (x &&& z) ^^^ (y &&& z)

/-- One round, with round constant `k` and schedule word `w`. -/
def round (s : Chain) (k w : ℕ) : Chain :=
  let t₁ := add (s.h + bigSigma1 s.e + ch s.e s.f s.g) (k + w)
  let t₂ := add (bigSigma0 s.a) (maj s.a s.b s.c)
  ⟨add t₁ t₂, s.a, s.b, s.c, add s.d t₁, s.e, s.f, s.g⟩

/-- Run the rounds of one block.  The window holds the next sixteen words of the message
schedule; a round consumes the first and computes the one behind the last. -/
def rounds : List ℕ → List ℕ → Chain → Chain
  | k :: ks, w :: window, s =>
    let next := add (smallSigma1 (window.getD 13 0) + window.getD 8 0)
      (smallSigma0 (window.getD 0 0) + w)
    rounds ks (window ++ [next]) (round s k w)
  | _, _, s => s

/-- Absorb one block of sixteen words. -/
def compress (s : Chain) (block : List ℕ) : Chain :=
  let t := rounds roundConstants block s
  ⟨add s.a t.a, add s.b t.b, add s.c t.c, add s.d t.d,
    add s.e t.e, add s.f t.f, add s.g t.g, add s.h t.h⟩

/-- The message, a one bit, zeros up to eight bytes before the end of a block, and the length in
bits as a big-endian 64-bit number. -/
def pad (message : List UInt8) : List UInt8 :=
  let n := message.length
  let size := [56, 48, 40, 32, 24, 16, 8, 0].map fun i => UInt8.ofNat ((8 * n) >>> i)
  message ++ 0x80 :: List.replicate ((119 - n % 64) % 64) 0 ++ size

/-- Four bytes to a word, big-endian. -/
def words : List UInt8 → List ℕ
  | a :: b :: c :: d :: rest =>
    (a.toNat <<< 24 ||| b.toNat <<< 16 ||| c.toNat <<< 8 ||| d.toNat) :: words rest
  | _ => []

/-- Absorb `n` blocks. -/
def absorb : ℕ → List ℕ → Chain → Chain
  | 0, _, s => s
  | n + 1, ws, s => absorb n (ws.drop 16) (compress s (ws.take 16))

/-- The digit of a number below sixteen. -/
def hexDigit (n : ℕ) : Char := "0123456789abcdef".toList.getD n '0'

/-- A word as eight hexadecimal digits. -/
def hexWord (w : ℕ) : List Char :=
  [28, 24, 20, 16, 12, 8, 4, 0].map fun i => hexDigit (w >>> i &&& 0xf)

end Sha256

open Sha256 in
/-- The hexadecimal SHA-256 digest. -/
def sha256 (message : ByteArray) : String :=
  let ws := words (pad message.data.toList)
  let s := absorb (ws.length / 16) ws initial
  String.ofList ([s.a, s.b, s.c, s.d, s.e, s.f, s.g, s.h].flatMap hexWord)

/-- The two messages are no collision. -/
def NoCollision (a b : ByteArray) : Prop := sha256 a = sha256 b → a = b

example : sha256 "abc".toUTF8 =
    "ba7816bf8f01cfea414140de5dae2223b00361a396177a9cb410ff61f20015ad" := by decide +kernel

end Lib
