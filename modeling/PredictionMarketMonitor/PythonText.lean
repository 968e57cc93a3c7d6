import PredictionMarketMonitor.CanonicalJson

set_option autoImplicit false

/-!
# Text functions of the language

`str.strip`, `str.split` and `str.splitlines`, whose white space is that of
`str.isspace`, and the decimal digits that `int` reads.
-/
namespace PredictionMarketMonitor.PythonText

open CanonicalJson

/-- `c.isspace()` -/
def isspace (c : Char) : Bool :=
  let n := c.toNat
  (9 ≤ n ∧ n ≤ 13) ∨ (28 ≤ n ∧ n ≤ 32) ∨ n ∈ [0x85, 0xA0, 0x1680, 0x2028, 0x2029, 0x202F, 0x205F, 0x3000] ∨
    (0x2000 ≤ n ∧ n ≤ 0x200A)

def strip (text : Text) : Text := (text.dropWhile isspace).rdropWhile isspace

/-- `str.split()` -/
def split (text : Text) : List Text := (text.splitOnP isspace).filter (· ≠ [])

def isLineBreak (c : Char) : Bool :=
  c.toNat ∈ [0x0A, 0x0B, 0x0C, 0x0D, 0x1C, 0x1D, 0x1E, 0x85, 0x2028, 0x2029]

def splitlines : Text → List Text
  | [] => []
  | '\r' :: '\n' :: rest => [] :: splitlines rest
  | c :: rest =>
    if isLineBreak c then [] :: splitlines rest
    else
      match splitlines rest with
      | [] => [[c]]
      | line :: lines => (c :: line) :: lines

/-- The zeros of the decimal digits of Unicode; the other digits of each follow it. -/
def decimalZeros : List ℕ :=
  [0x30, 0x660, 0x6F0, 0x7C0, 0x966, 0x9E6, 0xA66, 0xAE6, 0xB66, 0xBE6, 0xC66, 0xCE6, 0xD66, 0xDE6,
   0xE50, 0xED0, 0xF20, 0x1040, 0x1090, 0x17E0, 0x1810, 0x1946, 0x19D0, 0x1A80, 0x1A90, 0x1B50,
   0x1BB0, 0x1C40, 0x1C50, 0xA620, 0xA8D0, 0xA900, 0xA9D0, 0xA9F0, 0xAA50, 0xABF0, 0xFF10, 0x104A0,
   0x10D30, 0x11066, 0x110F0, 0x11136, 0x111D0, 0x112F0, 0x11450, 0x114D0, 0x11650, 0x116C0, 0x11730,
   0x118E0, 0x11950, 0x11C50, 0x11D50, 0x11DA0, 0x11F50, 0x16A60, 0x16AC0, 0x16B50, 0x1D7CE, 0x1D7D8,
   0x1D7E2, 0x1D7EC, 0x1D7F6, 0x1E140, 0x1E2F0, 0x1E4F0, 0x1E950, 0x1FBF0]

def decimal? (c : Char) : Option ℕ :=
  (decimalZeros.find? (fun first => first ≤ c.toNat ∧ c.toNat < first + 10)).map (c.toNat - ·)

def isdecimal (c : Char) : Bool := (decimal? c).isSome

/-- `int(text)` of decimal digits, with white space around them. -/
def intOf (text : Text) : ℕ := (text.filterMap decimal?).foldl (fun n d => 10 * n + d) 0

end PredictionMarketMonitor.PythonText
