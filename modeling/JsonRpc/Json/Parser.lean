import JsonRpc.Json.Basic
import JsonRpc.Text.Numeral
import JsonRpc.Text.Utf8

/-!
Reading JSON text. At most 127 arrays and objects may be open at once; of two members with one
key the later stays; a number that is no 64-bit integer is a binary64 number, and one beyond the
largest of these is refused.
-/

namespace JsonRpc.Json

def isSpace (c : Char) : Bool :=
  c = ' ' || c = '\t' || c = '\n' || c = '\r'

def isDigit (c : Char) : Bool :=
  '0' ≤ c && c ≤ '9'

def maxDepth : Nat := 127

def scanDigits? (cs : List Char) : Option (List Char × List Char) :=
  match cs.takeWhile isDigit with
  | [] => none
  | ds => some (ds, cs.dropWhile isDigit)

def scanWhole? : List Char → Option (List Char × List Char)
  | '0' :: rest => some (['0'], rest)
  | cs => scanDigits? cs

def scanFraction? : List Char → Option (List Char × List Char)
  | '.' :: rest => scanDigits? rest
  | cs => some ([], cs)

def scanSignedDigits? : List Char → Option (Int × List Char)
  | '-' :: rest => do
    let (ds, rest) ← scanDigits? rest
    return (-(← Text.ofDigits? 10 ds : Nat), rest)
  | '+' :: rest => do
    let (ds, rest) ← scanDigits? rest
    return ((← Text.ofDigits? 10 ds : Nat), rest)
  | cs => do
    let (ds, rest) ← scanDigits? cs
    return ((← Text.ofDigits? 10 ds : Nat), rest)

def scanExponent? : List Char → Option (Option Int × List Char)
  | 'e' :: rest | 'E' :: rest => (scanSignedDigits? rest).map fun (e, rest) => (some e, rest)
  | cs => some (none, cs)

def pushDigit? (significand : Nat) (c : Char) : Option Nat :=
  (Text.pushDigit 10 (some significand) c).filter (· < 1 <<< 64)

def leadingDigits (significand : Nat) : List Char → Nat × List Char
  | [] => (significand, [])
  | c :: cs =>
    match pushDigit? significand c with
    | some significand => leadingDigits significand cs
    | none => (significand, c :: cs)

/--
The number with these parts. Without a point, an exponent or digits that no longer fit it is an
integer, a negative zero and one below the signed words apart. Digits that no longer fit are left
out: before the point each counts as a factor of ten, behind it they count for nothing.
-/
def numberOf? (negative : Bool) (whole fraction : List Char) (exponent : Option Int) :
    Option Number :=
  let (significand, dropped) := leadingDigits 0 whole
  if fraction.isEmpty && exponent.isNone && dropped.isEmpty &&
      (!negative || (0 < significand && significand ≤ 1 <<< 63)) then
    Number.ofInt? (if negative then -significand else significand)
  else
    let (significand, unused) := leadingDigits significand fraction
    let scale := exponent.getD 0 + dropped.length - (fraction.length - unused.length : Nat)
    (Binary64.ofScaled? negative significand scale).map .float

def scanUnsigned? (negative : Bool) (cs : List Char) : Option (Number × List Char) := do
  let (whole, rest) ← scanWhole? cs
  let (fraction, rest) ← scanFraction? rest
  let (exponent, rest) ← scanExponent? rest
  return (← numberOf? negative whole fraction exponent, rest)

def scanNumber? : List Char → Option (Number × List Char)
  | '-' :: rest => scanUnsigned? true rest
  | cs => scanUnsigned? false cs

def scanHex4? : List Char → Option (Nat × List Char)
  | a :: b :: c :: d :: rest => (Text.ofDigits? 16 [a, b, c, d]).map (·, rest)
  | _ => none

/--
The character of an escape behind `\u`. One of the first half of a surrogate pair needs the
second half after it, and the second half does not stand alone.
-/
def scanCodePoint? (cs : List Char) : Option (Char × List Char) := do
  let (n, rest) ← scanHex4? cs
  if n < 0xD800 ∨ 0xDFFF < n then
    return (Char.ofNat n, rest)
  else if 0xDBFF < n then
    none
  else match rest with
    | '\\' :: 'u' :: rest => do
      let (m, rest) ← scanHex4? rest
      if 0xDC00 ≤ m ∧ m ≤ 0xDFFF then
        return (Char.ofNat (0x10000 + (n - 0xD800) * 0x400 + (m - 0xDC00)), rest)
      else
        none
    | _ => none

def escaped? (c : Char) : Option Char :=
  match c with
  | '"' => some '"'
  | '\\' => some '\\'
  | '/' => some '/'
  | 'b' => some '\x08'
  | 'f' => some '\x0c'
  | 'n' => some '\n'
  | 'r' => some '\r'
  | 't' => some '\t'
  | _ => none

def scanChar? : List Char → Option (Char × List Char)
  | '\\' :: 'u' :: rest => scanCodePoint? rest
  | '\\' :: c :: rest => (escaped? c).map (·, rest)
  | c :: rest => if c.toNat < 0x20 ∨ c = '\\' then none else some (c, rest)
  | [] => none

def scanString? : (fuel : Nat) → (acc : List Char) → List Char → Option (String × List Char)
  | 0, _, _ => none
  | fuel + 1, acc, cs =>
    match cs with
    | '"' :: rest => some (String.ofList acc.reverse, rest)
    | cs =>
      match scanChar? cs with
      | some (c, rest) => scanString? fuel (c :: acc) rest
      | none => none

def skipSpace (cs : List Char) : List Char :=
  cs.dropWhile isSpace

def scanName? (fuel : Nat) (cs : List Char) : Option (String × List Char) :=
  match skipSpace cs with
  | '"' :: rest =>
    match scanString? fuel [] rest with
    | some (key, rest) =>
      match skipSpace rest with
      | ':' :: rest => some (key, rest)
      | _ => none
    | none => none
  | _ => none

mutual

def scanValue? : (fuel depth : Nat) → List Char → Option (Json × List Char)
  | 0, _, _ => none
  | fuel + 1, depth, cs =>
    match skipSpace cs with
    | 'n' :: 'u' :: 'l' :: 'l' :: rest => some (.null, rest)
    | 't' :: 'r' :: 'u' :: 'e' :: rest => some (.bool true, rest)
    | 'f' :: 'a' :: 'l' :: 's' :: 'e' :: rest => some (.bool false, rest)
    | '"' :: rest => (scanString? fuel [] rest).map fun (s, rest) => (.string s, rest)
    | '[' :: rest =>
      match depth, skipSpace rest with
      | 0, _ => none
      | _ + 1, ']' :: rest => some (.array [], rest)
      | depth + 1, rest => scanItems? fuel depth [] rest
    | '\x7b' :: rest =>
      match depth, skipSpace rest with
      | 0, _ => none
      | _ + 1, '\x7d' :: rest => some (.object [], rest)
      | depth + 1, rest => scanMembers? fuel depth [] rest
    | cs => (scanNumber? cs).map fun (n, rest) => (.number n, rest)

def scanItems? : (fuel depth : Nat) → (acc : List Json) → List Char → Option (Json × List Char)
  | 0, _, _, _ => none
  | fuel + 1, depth, acc, cs =>
    match scanValue? fuel depth cs with
    | none => none
    | some (v, rest) =>
      match skipSpace rest with
      | ',' :: rest => scanItems? fuel depth (v :: acc) rest
      | ']' :: rest => some (.array (v :: acc).reverse, rest)
      | _ => none

def scanMembers? : (fuel depth : Nat) → (acc : List (String × Json)) → List Char →
    Option (Json × List Char)
  | 0, _, _, _ => none
  | fuel + 1, depth, acc, cs =>
    match scanName? fuel cs with
    | none => none
    | some (key, rest) =>
      match scanValue? fuel depth rest with
      | none => none
      | some (v, rest) =>
        match skipSpace rest with
        | ',' :: rest => scanMembers? fuel depth (Keyed.insert key v acc) rest
        | '\x7d' :: rest => some (.object (Keyed.insert key v acc), rest)
        | _ => none

end

def ofChars? (cs : List Char) : Option Json :=
  match scanValue? (2 * cs.length + 2) maxDepth cs with
  | some (v, rest) => if (skipSpace rest).isEmpty then some v else none
  | none => none

def parse? (s : String) : Option Json :=
  ofChars? s.toList

def decode? (bytes : Bytes) : Option Json :=
  (Text.Utf8.decode? bytes).bind parse?

end JsonRpc.Json
