/-!
Numerals in a base from 2 to 16. Writing uses lower case and no leading zero; reading takes
either case and any number of leading zeros, so `ofDigits? b (digits b n) = some n`.
-/

namespace JsonRpc.Text

def digitChar (d : Nat) : Char :=
  if d < 10 then Char.ofNat (48 + d) else Char.ofNat (87 + d)

def digitValue? (c : Char) : Option Nat :=
  let n := c.toNat
  if 48 ≤ n ∧ n ≤ 57 then some (n - 48)
  else if 97 ≤ n ∧ n ≤ 122 then some (n - 87)
  else if 65 ≤ n ∧ n ≤ 90 then some (n - 55)
  else none

def digits (base n : Nat) : List Char :=
  if 2 ≤ base ∧ base ≤ n then
    digits base (n / base) ++ [digitChar (n % base)]
  else
    [digitChar n]
termination_by n
decreasing_by
  next h =>
  exact Nat.div_lt_self (by omega) (by omega)

def pushDigit (base : Nat) (acc : Option Nat) (c : Char) : Option Nat :=
  acc.bind fun n => (digitValue? c).bind fun d => if d < base then some (n * base + d) else none

def ofDigits? (base : Nat) (cs : List Char) : Option Nat :=
  if cs.isEmpty then none else cs.foldl (pushDigit base) (some 0)

def decimal (n : Nat) : String :=
  String.ofList (digits 10 n)

def decimalInt (n : Int) : String :=
  if n < 0 then "-" ++ decimal n.natAbs else decimal n.natAbs

/--
Reads an unsigned decimal numeral below `bound`. A leading plus sign is taken, a hyphen or blank
is not.
-/
def ofUnsigned? (bound : Nat) (cs : List Char) : Option Nat :=
  let digits := match cs with
    | '+' :: rest => rest
    | cs => cs
  (ofDigits? 10 digits).filter (· < bound)

def ofSigned64? (base : Nat) : List Char → Option Int64
  | '-' :: rest =>
    (ofDigits? base rest).bind fun n => if n ≤ 1 <<< 63 then some (Int64.ofInt (-n)) else none
  | '+' :: rest =>
    (ofDigits? base rest).bind fun n => if n < 1 <<< 63 then some (Int64.ofNat n) else none
  | cs =>
    (ofDigits? base cs).bind fun n => if n < 1 <<< 63 then some (Int64.ofNat n) else none

end JsonRpc.Text
