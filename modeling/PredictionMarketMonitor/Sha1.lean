import PredictionMarketMonitor.Sha256

set_option autoImplicit false

/-!
# SHA-1

FIPS 180-4 over lists of bytes, for identities derived from names.
-/
namespace PredictionMarketMonitor.Sha1

open Sha256 (Bytes bigEndian bigEndianWords blocks pad)

def rotl (x n : ℕ) : ℕ := ((x <<< n) % 2 ^ 32) ||| (x >>> (32 - n))

structure Words where
  a : ℕ
  b : ℕ
  c : ℕ
  d : ℕ
  e : ℕ

def initialWords : Words := ⟨0x67452301, 0xefcdab89, 0x98badcfe, 0x10325476, 0xc3d2e1f0⟩

/-- `n` schedule words from a sliding window of sixteen. -/
def schedule : ℕ → List ℕ → List ℕ
  | n + 1, [w0, w1, w2, w3, w4, w5, w6, w7, w8, w9, w10, w11, w12, w13, w14, w15] =>
    w0 :: schedule n [w1, w2, w3, w4, w5, w6, w7, w8, w9, w10, w11, w12, w13, w14, w15,
      rotl (w13 ^^^ w8 ^^^ w2 ^^^ w0) 1]
  | _, _ => []

def mix (t b c d : ℕ) : ℕ × ℕ :=
  if t < 20 then ((b &&& c) ^^^ ((2 ^ 32 - 1 - b) &&& d), 0x5a827999)
  else if t < 40 then (b ^^^ c ^^^ d, 0x6ed9eba1)
  else if t < 60 then ((b &&& c) ^^^ (b &&& d) ^^^ (c &&& d), 0x8f1bbcdc)
  else (b ^^^ c ^^^ d, 0xca62c1d6)

def round (s : Words) (tw : ℕ × ℕ) : Words :=
  let fk := mix tw.1 s.b s.c s.d
  ⟨(rotl s.a 5 + fk.1 + s.e + fk.2 + tw.2) % 2 ^ 32, s.a, rotl s.b 30, s.c, s.d⟩

def compress (s : Words) (block : List ℕ) : Words :=
  let r := ((List.range 80).zip (schedule 80 block)).foldl round s
  ⟨(s.a + r.a) % 2 ^ 32, (s.b + r.b) % 2 ^ 32, (s.c + r.c) % 2 ^ 32, (s.d + r.d) % 2 ^ 32,
   (s.e + r.e) % 2 ^ 32⟩

@[irreducible] def sha1 (message : Bytes) : Bytes :=
  let ws := bigEndianWords (pad message)
  let s := (blocks (ws.length / 16) ws).foldl compress initialWords
  [s.a, s.b, s.c, s.d, s.e].flatMap (fun w => bigEndian w 4)

/-- The digest of the three-byte message "abc" in FIPS 180-4. -/
example : sha1 [0x61, 0x62, 0x63] =
    [0xa9, 0x99, 0x3e, 0x36, 0x47, 0x06, 0x81, 0x6a, 0xba, 0x3e,
     0x25, 0x71, 0x78, 0x50, 0xc2, 0x6c, 0x9c, 0xd0, 0xd8, 0x9d] := by
  decide +kernel

end PredictionMarketMonitor.Sha1
