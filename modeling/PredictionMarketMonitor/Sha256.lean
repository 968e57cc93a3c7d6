import Mathlib

set_option autoImplicit false

/-!
# SHA-256 and HMAC-SHA-256

FIPS 180-4 over lists of bytes, with 32-bit words as natural numbers below
`2 ^ 32` so that a digest can be evaluated by the kernel.
-/
namespace PredictionMarketMonitor.Sha256

abbrev Bytes := List UInt8

/-- A raw digest. `bytes` is `digest()`, `hexdigest` its lowercase rendering. -/
abbrev Digest := BitVec 256

/-- The `k` low-order bytes of `n`, most significant first. -/
def bigEndian (n : ℕ) : ℕ → Bytes
  | 0 => []
  | k + 1 => UInt8.ofNat (n / 256 ^ k) :: bigEndian n k

def ofBigEndian (bs : Bytes) : ℕ := bs.foldl (fun n b => n * 256 + b.toNat) 0

def hexDigits : List Char :=
  ['0', '1', '2', '3', '4', '5', '6', '7', '8', '9', 'a', 'b', 'c', 'd', 'e', 'f']

/-- Lowercase hexadecimal with `k` digits. -/
def hexString (n k : ℕ) : List Char :=
  ((List.range k).reverse).map (fun i => hexDigits.getD (n / 16 ^ i % 16) '0')

def Digest.bytes (d : Digest) : Bytes := bigEndian d.toNat 32

def Digest.hexdigest (d : Digest) : List Char := hexString d.toNat 64

section Compression

def rotr (x n : ℕ) : ℕ := (x >>> n) ||| ((x <<< (32 - n)) % 2 ^ 32)

def roundConstants : List ℕ :=
  [0x428a2f98, 0x71374491, 0xb5c0fbcf, 0xe9b5dba5, 0x3956c25b, 0x59f111f1, 0x923f82a4, 0xab1c5ed5,
   0xd807aa98, 0x12835b01, 0x243185be, 0x550c7dc3, 0x72be5d74, 0x80deb1fe, 0x9bdc06a7, 0xc19bf174,
   0xe49b69c1, 0xefbe4786, 0x0fc19dc6, 0x240ca1cc, 0x2de92c6f, 0x4a7484aa, 0x5cb0a9dc, 0x76f988da,
   0x983e5152, 0xa831c66d, 0xb00327c8, 0xbf597fc7, 0xc6e00bf3, 0xd5a79147, 0x06ca6351, 0x14292967,
   0x27b70a85, 0x2e1b2138, 0x4d2c6dfc, 0x53380d13, 0x650a7354, 0x766a0abb, 0x81c2c92e, 0x92722c85,
   0xa2bfe8a1, 0xa81a664b, 0xc24b8b70, 0xc76c51a3, 0xd192e819, 0xd6990624, 0xf40e3585, 0x106aa070,
   0x19a4c116, 0x1e376c08, 0x2748774c, 0x34b0bcb5, 0x391c0cb3, 0x4ed8aa4a, 0x5b9cca4f, 0x682e6ff3,
   0x748f82ee, 0x78a5636f, 0x84c87814, 0x8cc70208, 0x90befffa, 0xa4506ceb, 0xbef9a3f7, 0xc67178f2]

structure Words where
  a : ℕ
  b : ℕ
  c : ℕ
  d : ℕ
  e : ℕ
  f : ℕ
  g : ℕ
  h : ℕ

def initialWords : Words :=
  ⟨0x6a09e667, 0xbb67ae85, 0x3c6ef372, 0xa54ff53a, 0x510e527f, 0x9b05688c, 0x1f83d9ab, 0x5be0cd19⟩

/-- `n` schedule words from a sliding window of sixteen. -/
def schedule : ℕ → List ℕ → List ℕ
  | n + 1, [w0, w1, w2, w3, w4, w5, w6, w7, w8, w9, w10, w11, w12, w13, w14, w15] =>
    let s0 := rotr w1 7 ^^^ rotr w1 18 ^^^ (w1 >>> 3)
    let s1 := rotr w14 17 ^^^ rotr w14 19 ^^^ (w14 >>> 10)
    w0 :: schedule n [w1, w2, w3, w4, w5, w6, w7, w8, w9, w10, w11, w12, w13, w14, w15,
      (w0 + s0 + w9 + s1) % 2 ^ 32]
  | _, _ => []

def round (s : Words) (kw : ℕ × ℕ) : Words :=
  let s1 := rotr s.e 6 ^^^ rotr s.e 11 ^^^ rotr s.e 25
  let ch := (s.e &&& s.f) ^^^ ((2 ^ 32 - 1 - s.e) &&& s.g)
  let t1 := s.h + s1 + ch + kw.1 + kw.2
  let s0 := rotr s.a 2 ^^^ rotr s.a 13 ^^^ rotr s.a 22
  let maj := (s.a &&& s.b) ^^^ (s.a &&& s.c) ^^^ (s.b &&& s.c)
  ⟨(t1 + s0 + maj) % 2 ^ 32, s.a, s.b, s.c, (s.d + t1) % 2 ^ 32, s.e, s.f, s.g⟩

def compress (s : Words) (block : List ℕ) : Words :=
  let r := (roundConstants.zip (schedule 64 block)).foldl round s
  ⟨(s.a + r.a) % 2 ^ 32, (s.b + r.b) % 2 ^ 32, (s.c + r.c) % 2 ^ 32, (s.d + r.d) % 2 ^ 32,
   (s.e + r.e) % 2 ^ 32, (s.f + r.f) % 2 ^ 32, (s.g + r.g) % 2 ^ 32, (s.h + r.h) % 2 ^ 32⟩

def bigEndianWords : Bytes → List ℕ
  | a :: b :: c :: d :: rest => ofBigEndian [a, b, c, d] :: bigEndianWords rest
  | _ => []

/-- `n` blocks of sixteen words. -/
def blocks : ℕ → List ℕ → List (List ℕ)
  | 0, _ => []
  | n + 1, ws => ws.take 16 :: blocks n (ws.drop 16)

def pad (message : Bytes) : Bytes :=
  message ++ [0x80] ++ List.replicate ((119 - message.length % 64) % 64) 0
    ++ bigEndian (8 * message.length) 8

end Compression

@[irreducible] def sha256 (message : Bytes) : Digest :=
  let ws := bigEndianWords (pad message)
  let s := (blocks (ws.length / 16) ws).foldl compress initialWords
  BitVec.ofNat 256 ([s.a, s.b, s.c, s.d, s.e, s.f, s.g, s.h].foldl (fun n w => n * 2 ^ 32 + w) 0)

/-- `hmac.new(key, message, sha256).digest()`. -/
def hmacSha256 (key message : Bytes) : Digest :=
  let short := if key.length > 64 then (sha256 key).bytes else key
  let block := short ++ List.replicate (64 - short.length) 0
  sha256 (block.map (· ^^^ 0x5c) ++ (sha256 (block.map (· ^^^ 0x36) ++ message)).bytes)

/-- The digest of the three-byte message "abc" in FIPS 180-4, appendix B.1. -/
example : (sha256 [0x61, 0x62, 0x63]).hexdigest
    = "ba7816bf8f01cfea414140de5dae2223b00361a396177a9cb410ff61f20015ad".toList := by
  decide +kernel

end PredictionMarketMonitor.Sha256
