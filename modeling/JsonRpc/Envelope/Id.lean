import JsonRpc.Envelope.Fault

/-!
Request identifiers: null, a signed word or a text. The form is kept: the integer 1 and the text
"1" are different identifiers.
-/

namespace JsonRpc

inductive Id where
  | null
  | int (value : Int64)
  | text (value : String)
  deriving DecidableEq, Inhabited

namespace Id

def isNull : Id → Bool
  | .null => true
  | _ => false

def display : Id → String
  | .null => "null"
  | .int n => Text.decimalInt n.toInt
  | .text s => Text.quoted s

def toJson : Id → Json
  | .null => .null
  | .int n => .ofInt64 n
  | .text s => .string s

def ofJson : Json → Except ProtocolError Id
  | .null => .ok .null
  | .number n =>
    match (Json.number n).asInt64? with
    | some i => .ok (.int i)
    | none =>
      .error (.invalidMessage ("id must be an integer, got " ++ String.ofList n.text))
  | .string s => .ok (.text s)
  | v => .error (.invalidMessage ("id must be null, an integer, or a string, got " ++ v.render))

def expected : String := "null, an integer, or a string"

def visitor : Json.Visitor Id where
  expected := expected
  null := .ok .null
  signed n := .ok (.int n)
  unsigned n :=
    if n.toNat < 1 <<< 63 then .ok (.int n.toInt64) else .error (.outOfRange n.toNat expected)
  string s := .ok (.text s)

def read : Json.Decoder Id :=
  visitor.visit

end Id

end JsonRpc
