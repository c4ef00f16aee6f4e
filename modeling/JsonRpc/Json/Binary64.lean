/-!
Finite binary64 numbers as a sign and a magnitude. The magnitude is the number's bit pattern
without the sign, so that consecutive magnitudes are neighbouring numbers, and its value is a
whole multiple of the smallest positive number: all arithmetic here is exact and in `Nat`.
-/

namespace JsonRpc

structure Binary64 where
  negative : Bool
  magnitude : Nat
  magnitude_lt : magnitude < 2047 <<< 52
  deriving DecidableEq

namespace Binary64

/-- The number with `magnitude` as a multiple of 2 to the power -1074. -/
def units (magnitude : Nat) : Nat :=
  if magnitude < 1 <<< 52 then
    magnitude
  else
    (1 <<< 52 + magnitude % (1 <<< 52)) <<< (magnitude >>> 52 - 1)

/-- `num / den` to the nearest whole number, an exact half to the even one. -/
def roundDiv (num den : Nat) : Nat :=
  let q := num / den
  let r := num % den
  if 2 * r < den then q
  else if den < 2 * r then q + 1
  else q + q % 2

def nearest (num den : Nat) : Nat :=
  let scaled := num <<< 1074
  let shift := (scaled / den).log2 - 52
  shift <<< 52 + roundDiv scaled (den <<< shift)

def zero (negative : Bool) : Binary64 :=
  ⟨negative, 0, by decide⟩

def mul (a b : Nat) : Nat :=
  nearest (units a * units b) (1 <<< 2148)

def div (a b : Nat) : Nat :=
  nearest (units a) (units b)

def powerOfTen (n : Nat) : Nat :=
  nearest (Nat.pow 10 n) 1

def maxPower : Nat := 308

def divPower (magnitude n : Nat) : Nat :=
  if maxPower < n then
    if magnitude = 0 then 0 else divPower (div magnitude (powerOfTen maxPower)) (n - maxPower)
  else
    div magnitude (powerOfTen n)
termination_by n
decreasing_by
  have : 0 < maxPower := by decide
  omega

def mulPower? (magnitude n : Nat) : Option Nat :=
  if magnitude = 0 then some 0
  else if maxPower < n then none
  else some (mul magnitude (powerOfTen n))

/--
The number for `significand · 10 ^ exponent`: both factors are rounded, and then their product
or quotient is; `none` if that is beyond the largest number.
-/
def ofScaled? (negative : Bool) (significand : Nat) (exponent : Int) : Option Binary64 := do
  let start := nearest significand 1
  let m ← if exponent < 0 then some (divPower start exponent.natAbs)
    else mulPower? start exponent.natAbs
  if h : m < 2047 <<< 52 then some ⟨negative, m, h⟩ else none

end Binary64

end JsonRpc
