import JsonRpc.Json.Printer
import JsonRpc.Text.Quoted

/-!
Reading typed data out of a JSON value. A decoder takes a value of one shape and tells exactly
what it met instead of it.
-/

namespace JsonRpc.Json

inductive Found where
  | bool (value : Bool)
  | integer (value : Int)
  | float (value : Binary64)
  | string (value : String)
  | null
  | sequence
  | map
  deriving DecidableEq

inductive ShapeFault where
  | wrongType (found : Found) (expected : String)
  | outOfRange (value : Int) (expected : String)
  | wrongLength (length : Nat) (expected : String)
  | missingField (name : String)
  deriving DecidableEq

def Found.text : Found → String
  | .bool true => "boolean `true`"
  | .bool false => "boolean `false`"
  | .integer n => "integer `" ++ Text.decimalInt n ++ "`"
  | .float x => "floating point `" ++ String.ofList (floatText x) ++ "`"
  | .string s => "string " ++ Text.quoted s
  | .null => "null"
  | .sequence => "sequence"
  | .map => "map"

def ShapeFault.message : ShapeFault → String
  | .wrongType found expected => "invalid type: " ++ found.text ++ ", expected " ++ expected
  | .outOfRange n expected =>
    "invalid value: integer `" ++ Text.decimalInt n ++ "`, expected " ++ expected
  | .wrongLength n expected =>
    "invalid length " ++ Text.decimal n ++ ", expected " ++ expected
  | .missingField name => "missing field `" ++ name ++ "`"

abbrev Decoder (α : Type) := Json → Except ShapeFault α

def found : Json → Found
  | .null => .null
  | .bool b => .bool b
  | .number (.integer n _) => .integer n
  | .number (.float x) => .float x
  | .string s => .string s
  | .array _ => .sequence
  | .object _ => .map

def refuse {α : Type} (expected : String) (v : Json) : Except ShapeFault α :=
  .error (.wrongType v.found expected)

/--
What is done with each kind of value where data may have any of several shapes. Integers below zero
are shown as signed words, all others as unsigned ones; what is not wanted is refused.
-/
structure Visitor (α : Type) where
  expected : String
  null : Except ShapeFault α := .error (.wrongType .null expected)
  bool (value : Bool) : Except ShapeFault α := .error (.wrongType (.bool value) expected)
  signed (n : Int64) : Except ShapeFault α := .error (.wrongType (.integer n.toInt) expected)
  unsigned (n : UInt64) : Except ShapeFault α := .error (.wrongType (.integer n.toNat) expected)
  float (x : Binary64) : Except ShapeFault α := .error (.wrongType (.float x) expected)
  string (s : String) : Except ShapeFault α := .error (.wrongType (.string s) expected)
  sequence (items : List Json) : Except ShapeFault α := .error (.wrongType .sequence expected)
  map (members : Members) : Except ShapeFault α := .error (.wrongType .map expected)

def Visitor.visit {α : Type} (visitor : Visitor α) : Decoder α
  | .null => visitor.null
  | .bool value => visitor.bool value
  | .number (.integer n _) =>
    if n < 0 then visitor.signed (Int64.ofInt n) else visitor.unsigned (UInt64.ofNat n.toNat)
  | .number (.float x) => visitor.float x
  | .string s => visitor.string s
  | .array items => visitor.sequence items
  | .object members => visitor.map members

def toInt64 : Decoder Int64
  | .number (.integer n _) =>
    if n < (1 <<< 63 : Nat) then .ok (Int64.ofInt n) else .error (.outOfRange n "i64")
  | v => refuse "i64" v

def toUInt64 : Decoder UInt64
  | .number (.integer n _) =>
    if 0 ≤ n then .ok (UInt64.ofNat n.toNat) else .error (.outOfRange n "u64")
  | v => refuse "u64" v

def toBool : Decoder Bool
  | .bool b => .ok b
  | v => refuse "a boolean" v

def toText : Decoder String
  | .string s => .ok s
  | v => refuse "a string" v

def toUnit : Decoder Unit
  | .null => .ok ()
  | v => refuse "unit" v

def toJson : Decoder Json
  | v => .ok v

def toOption {α : Type} (d : Decoder α) : Decoder (Option α)
  | .null => .ok none
  | v => (d v).map some

def toList {α : Type} (d : Decoder α) : Decoder (List α)
  | .array items => items.mapM d
  | v => refuse "a sequence" v

def toMap {α : Type} (d : Decoder α) : Decoder (List (String × α))
  | .object members => members.mapM fun (key, v) => (d v).map (key, ·)
  | v => refuse "a map" v

def fewerElements : String := "fewer elements in array"

def toPair {α : Type} (d : Decoder α) : Decoder (α × α)
  | .array items => do
    let wanted := "an array of length 2"
    match items with
    | [] => .error (.wrongLength 0 wanted)
    | [a] =>
      let _ ← d a
      .error (.wrongLength 1 wanted)
    | [a, b] => return (← d a, ← d b)
    | a :: b :: rest =>
      let _ ← d a
      let _ ← d b
      .error (.wrongLength (rest.length + 2) fewerElements)
  | v => refuse "an array of length 2" v

end JsonRpc.Json
