/-
SHA-1.

The hash function of FIPS 180-4 with a digest of 160 bits; padding, words and the boolean functions
are those of SHA-256.
-/
import Evosport.Lib.Sha256

namespace Lib

namespace Sha1

open Sha256 (add ch maj pad words hexWord)

/-- The five chaining words. -/
structure Chain where
  a : ℕ
  b : ℕ
  c : ℕ
  d : ℕ
  e : ℕ

/-- The chain before the first block. -/
def initial : Chain := ⟨0x67452301, 0xefcdab89, 0x98badcfe, 0x10325476, 0xc3d2e1f0⟩

/-- Rotation to the left by `n` bits, for `0 < n < 32`. -/
def rotl (x n : ℕ) : ℕ := (x <<< n) % 2 ^ 32 ||| (x >>> (32 - n))

/-- The function of the round `t` with its constant. -/
def mix (t b c d : ℕ) : ℕ :=
  if t < 20 then ch b c d + 0x5a827999
  else if t < 40 then (b ^^^ c ^^^ d) + 0x6ed9eba1
  else if t < 60 then maj b c d + 0x8f1bbcdc
  else (b ^^^ c ^^^ d) + 0xca62c1d6

/-- The round `t`, with schedule word `w`. -/
def round (s : Chain) (t w : ℕ) : Chain :=
  ⟨add (rotl s.a 5 + mix t s.b s.c s.d) (s.e + w), s.a, rotl s.b 30, s.c, s.d⟩

/-- Run the given rounds of one block; the window holds the next sixteen words of the schedule. -/
def rounds : List ℕ → List ℕ → Chain → Chain
  | t :: ts, w :: window, s =>
    let next := rotl (window.getD 12 0 ^^^ window.getD 7 0 ^^^ window.getD 1 0 ^^^ w) 1
    rounds ts (window ++ [next]) (round s t w)
  | _, _, s => s

/-- Absorb one block of sixteen words. -/
def compress (s : Chain) (block : List ℕ) : Chain :=
  let t := rounds (List.range 80) block s
  ⟨add s.a t.a, add s.b t.b, add s.c t.c, add s.d t.d, add s.e t.e⟩

/-- Absorb `n` blocks. -/
def absorb : ℕ → List ℕ → Chain → Chain
  | 0, _, s => s
  | n + 1, ws, s => absorb n (ws.drop 16) (compress s (ws.take 16))

end Sha1

open Sha1 in
/-- The hexadecimal SHA-1 digest. -/
def sha1 (message : ByteArray) : String :=
  let ws := Sha256.words (Sha256.pad message.data.toList)
  let s := absorb (ws.length / 16) ws initial
  String.ofList ([s.a, s.b, s.c, s.d, s.e].flatMap Sha256.hexWord)

example : sha1 "abc".toUTF8 = "a9993e364706816aba3e25717850c26c9cd0d89d" := by decide +kernel

end Lib
