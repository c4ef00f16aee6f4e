/-!
UTF-8. A byte string is cut into characters and maximal invalid parts by one scanner; strict and
replacing decoders both read its pieces.
-/

namespace JsonRpc

abbrev Bytes := List UInt8

namespace Text.Utf8

def encodeChar (c : Char) : Bytes :=
  let n := c.toNat
  if n < 0x80 then
    [UInt8.ofNat n]
  else if n < 0x800 then
    [UInt8.ofNat (0xC0 + n / 64), UInt8.ofNat (0x80 + n % 64)]
  else if n < 0x10000 then
    [UInt8.ofNat (0xE0 + n / 4096), UInt8.ofNat (0x80 + n / 64 % 64), UInt8.ofNat (0x80 + n % 64)]
  else
    [UInt8.ofNat (0xF0 + n / 262144), UInt8.ofNat (0x80 + n / 4096 % 64),
      UInt8.ofNat (0x80 + n / 64 % 64), UInt8.ofNat (0x80 + n % 64)]

def encode (s : String) : Bytes :=
  s.toList.flatMap encodeChar

/--
Reads `count` continuation bytes, the first of them within `lo` to `hi`. A byte that does not
fit stays unread.
-/
def trail : (count : Nat) → (lo hi : UInt8) → (acc : Nat) → Bytes → Option Char × Bytes
  | 0, _, _, acc, rest => (some (Char.ofNat acc), rest)
  | _ + 1, _, _, _, [] => (none, [])
  | count + 1, lo, hi, acc, b :: rest =>
    if lo ≤ b ∧ b ≤ hi then
      trail count 0x80 0xBF (acc * 64 + (b.toNat - 0x80)) rest
    else
      (none, b :: rest)

/-- One character, or `none` for a maximal part of an ill-formed one, and what follows it. -/
def scan (b : UInt8) (rest : Bytes) : Option Char × Bytes :=
  if b ≤ 0x7F then (some (Char.ofNat b.toNat), rest)
  else if b < 0xC2 then (none, rest)
  else if b ≤ 0xDF then trail 1 0x80 0xBF (b.toNat - 0xC0) rest
  else if b = 0xE0 then trail 2 0xA0 0xBF 0 rest
  else if b = 0xED then trail 2 0x80 0x9F 0xD rest
  else if b ≤ 0xEF then trail 2 0x80 0xBF (b.toNat - 0xE0) rest
  else if b = 0xF0 then trail 3 0x90 0xBF 0 rest
  else if b ≤ 0xF3 then trail 3 0x80 0xBF (b.toNat - 0xF0) rest
  else if b = 0xF4 then trail 3 0x80 0x8F 4 rest
  else (none, rest)

theorem trail_length_le (count : Nat) (lo hi : UInt8) (acc : Nat) (rest : Bytes) :
    (trail count lo hi acc rest).2.length ≤ rest.length := by
  induction count generalizing lo hi acc rest with
  | zero => simp [trail]
  | succ count ih =>
    cases rest with
    | nil => simp [trail]
    | cons b rest =>
      rw [trail]
      split
      . exact Nat.le_succ_of_le (ih _ _ _ rest)
      . simp

theorem scan_length_le (b : UInt8) (rest : Bytes) : (scan b rest).2.length ≤ rest.length := by
  unfold scan
  repeat' split
  all_goals first | exact Nat.le_refl _ | exact trail_length_le _ _ _ _ _

def pieces.go (acc : List (Option Char)) : Bytes → List (Option Char)
  | [] => acc.reverse
  | b :: rest => go ((scan b rest).1 :: acc) (scan b rest).2
termination_by bytes => bytes.length
decreasing_by exact Nat.lt_succ_of_le (scan_length_le b rest)

def pieces (bytes : Bytes) : List (Option Char) :=
  pieces.go [] bytes

def decode? (bytes : Bytes) : Option String :=
  let found := pieces bytes
  if found.all Option.isSome then
    some (String.ofList (found.filterMap id))
  else
    none

def decodeLossy (bytes : Bytes) : String :=
  String.ofList ((pieces bytes).map (·.getD '\uFFFD'))

end Text.Utf8

end JsonRpc
