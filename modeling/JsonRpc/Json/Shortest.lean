import JsonRpc.Json.Binary64
import JsonRpc.Text.Numeral

/-!
The shortest decimal that reads back as a given binary64 number. For one digit, two digits and
so on, the two points of the decimal grid next to the number are tested against the interval of
reals that round to it; the first grid with a hit wins, and of two hits the nearer one.
-/

namespace JsonRpc

structure Decimal where
  coefficient : Nat
  exponent : Int
  deriving DecidableEq

namespace Decimal

def trim (d : Decimal) : Decimal :=
  if d.coefficient ≠ 0 ∧ d.coefficient % 10 = 0 then
    trim ⟨d.coefficient / 10, d.exponent + 1⟩
  else
    d
termination_by d.coefficient
decreasing_by
  next h =>
  exact Nat.div_lt_self (by omega) (by decide)

end Decimal

namespace Binary64

/--
The interval of reals that round to the number with `magnitude`, its ends and the number itself
as multiples of 2 to the power -1075. The ends belong to it if the magnitude is even.
-/
structure Interval where
  low : Nat
  mid : Nat
  high : Nat
  closed : Bool

def interval (magnitude : Nat) : Interval where
  low := units (magnitude - 1) + units magnitude
  mid := 2 * units magnitude
  high := units magnitude + units (magnitude + 1)
  closed := magnitude % 2 = 0

def Interval.contains (i : Interval) (point scale : Nat) : Bool :=
  if i.closed then i.low * scale ≤ point && point ≤ i.high * scale
  else i.low * scale < point && point < i.high * scale

/--
The point of the grid with step `10 ^ exponent` that lies in the interval; of two the nearer
one, and of two equally near ones the even one.
-/
def Interval.gridPoint? (i : Interval) (exponent : Int) : Option Decimal :=
  let step := if exponent < 0 then 1 <<< 1075 else Nat.pow 10 exponent.natAbs <<< 1075
  let scale := if exponent < 0 then Nat.pow 10 exponent.natAbs else 1
  let below := i.mid * scale / step
  let rest := i.mid * scale % step
  let hitBelow := i.contains (below * step) scale
  let hitAbove := i.contains ((below + 1) * step) scale
  if hitBelow && hitAbove then
    if 2 * rest < step ∨ (2 * rest = step ∧ below % 2 = 0) then some ⟨below, exponent⟩
    else some ⟨below + 1, exponent⟩
  else if hitBelow then some ⟨below, exponent⟩
  else if hitAbove then some ⟨below + 1, exponent⟩
  else none

def powerLe (e : Int) (magnitude : Nat) : Bool :=
  if e < 0 then 1 <<< 1074 ≤ units magnitude * Nat.pow 10 e.natAbs
  else Nat.pow 10 e.natAbs <<< 1074 ≤ units magnitude

def leadingExponent (magnitude : Nat) : Int :=
  let estimate : Int := ((units magnitude).log2 - 1074 : Int) * 30103 / 100000
  if powerLe (estimate + 1) magnitude then estimate + 1
  else if powerLe estimate magnitude then estimate
  else estimate - 1

/-- The decimal with the fewest digits that reads back as the number, its sign left out. -/
def shortest (x : Binary64) : Decimal :=
  if x.magnitude = 0 then
    ⟨0, 0⟩
  else
    let i := interval x.magnitude
    let e := leadingExponent x.magnitude
    let hit := (List.range 17).findSome? fun n : Nat => i.gridPoint? (e - n)
    (hit.getD ⟨0, 0⟩).trim

end Binary64

end JsonRpc
