import JsonRpc.Json.Binary64
import JsonRpc.Keyed

/-!
JSON values. A number is a 64-bit integer, signed or unsigned, or a binary64 number, and the two
never compare equal. The members of an object that is read ascend by key.
-/

namespace JsonRpc

inductive Json.Number where
  | integer (value : Int) (in_range : -(1 <<< 63 : Nat) ≤ value ∧ value < (1 <<< 64 : Nat))
  | float (value : Binary64)
  deriving DecidableEq

inductive Json where
  | null
  | bool (value : Bool)
  | number (value : Json.Number)
  | string (value : String)
  | array (items : List Json)
  | object (members : List (String × Json))
  deriving Inhabited

namespace Json

abbrev Members := List (String × Json)

def Number.ofInt? (n : Int) : Option Number :=
  if h : -(1 <<< 63 : Nat) ≤ n ∧ n < (1 <<< 64 : Nat) then some (.integer n h) else none

theorem int64_in_range (n : Int64) : -(1 <<< 63 : Nat) ≤ n.toInt ∧ n.toInt < (1 <<< 64 : Nat) :=
  ⟨Int64.le_toInt n, Int.lt_trans (Int64.toInt_lt n) (by decide)⟩

theorem uint64_in_range (n : UInt64) :
    -(1 <<< 63 : Nat) ≤ (n.toNat : Int) ∧ (n.toNat : Int) < (1 <<< 64 : Nat) :=
  ⟨by omega, by have := n.toNat_lt; omega⟩

def ofInt64 (n : Int64) : Json :=
  .number (.integer n.toInt (int64_in_range n))

def ofUInt64 (n : UInt64) : Json :=
  .number (.integer n.toNat (uint64_in_range n))

def asInt64? : Json → Option Int64
  | .number (.integer n _) => if n < (1 <<< 63 : Nat) then some (Int64.ofInt n) else none
  | _ => none

def member? (key : String) : Json → Option Json
  | .object members => Keyed.find? key members
  | _ => none

mutual

def decEq : (a b : Json) → Decidable (a = b)
  | .null, .null => isTrue rfl
  | .bool a, .bool b =>
    if h : a = b then isTrue (h ▸ rfl) else isFalse (fun e => h (Json.bool.inj e))
  | .number a, .number b =>
    if h : a = b then isTrue (h ▸ rfl) else isFalse (fun e => h (Json.number.inj e))
  | .string a, .string b =>
    if h : a = b then isTrue (h ▸ rfl) else isFalse (fun e => h (Json.string.inj e))
  | .array a, .array b =>
    match decEqItems a b with
    | isTrue h => isTrue (h ▸ rfl)
    | isFalse h => isFalse (fun e => h (Json.array.inj e))
  | .object a, .object b =>
    match decEqMembers a b with
    | isTrue h => isTrue (h ▸ rfl)
    | isFalse h => isFalse (fun e => h (Json.object.inj e))
  | .null, .bool _ | .null, .number _ | .null, .string _ | .null, .array _ | .null, .object _
  | .bool _, .null | .bool _, .number _ | .bool _, .string _ | .bool _, .array _
  | .bool _, .object _
  | .number _, .null | .number _, .bool _ | .number _, .string _ | .number _, .array _
  | .number _, .object _
  | .string _, .null | .string _, .bool _ | .string _, .number _ | .string _, .array _
  | .string _, .object _
  | .array _, .null | .array _, .bool _ | .array _, .number _ | .array _, .string _
  | .array _, .object _
  | .object _, .null | .object _, .bool _ | .object _, .number _ | .object _, .string _
  | .object _, .array _ => isFalse nofun

def decEqItems : (a b : List Json) → Decidable (a = b)
  | [], [] => isTrue rfl
  | [], _ :: _ => isFalse nofun
  | _ :: _, [] => isFalse nofun
  | x :: xs, y :: ys =>
    match decEq x y, decEqItems xs ys with
    | isTrue h, isTrue t => isTrue (h ▸ t ▸ rfl)
    | isFalse h, _ => isFalse (fun e => h (List.cons.inj e).1)
    | _, isFalse t => isFalse (fun e => t (List.cons.inj e).2)

def decEqMembers : (a b : List (String × Json)) → Decidable (a = b)
  | [], [] => isTrue rfl
  | [], _ :: _ => isFalse nofun
  | _ :: _, [] => isFalse nofun
  | (k, x) :: xs, (l, y) :: ys =>
    if hk : k = l then
      match decEq x y, decEqMembers xs ys with
      | isTrue h, isTrue t => isTrue (hk ▸ h ▸ t ▸ rfl)
      | isFalse h, _ => isFalse (fun e => h (Prod.mk.inj (List.cons.inj e).1).2)
      | _, isFalse t => isFalse (fun e => t (List.cons.inj e).2)
    else
      isFalse (fun e => hk (Prod.mk.inj (List.cons.inj e).1).1)

end

instance : DecidableEq Json := decEq

end Json

end JsonRpc
