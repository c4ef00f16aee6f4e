import JsonRpc.Envelope.Response

/-!
Envelopes that are described by JSON values. Values inside a description are carried as JSON text,
and an integer may be given as a decimal text.
-/

namespace JsonRpc.Recipe

def integer? : Json → Option Int
  | .number (.integer n _) => some n
  | .string s =>
    match s.toList with
    | '-' :: cs => (Text.ofDigits? 10 cs).map fun n => -(n : Int)
    | cs => (Text.ofDigits? 10 cs).map fun n => (n : Int)
  | _ => none

def text? : Json → Option String
  | .string s => some s
  | _ => none

def carried? (key : String) (v : Json) : Option Json :=
  ((v.member? key).bind text?).bind Json.parse?

def id (v : Json) : Id :=
  match (v.member? "int").bind integer?, (v.member? "str").bind text?,
    (v.member? "string").bind text? with
  | some n, _, _ => .int (Int64.ofInt n)
  | none, some s, _ | none, none, some s => .text s
  | none, none, none => .null

def idOf (v : Json) : Id :=
  match v.member? "id" with
  | some d => id d
  | none => .null

def extraOf (v : Json) : List (String × Json) :=
  match v.member? "extra" with
  | some (.array items) => items.filterMap fun
    | .array [.string key, .string value] => (Json.parse? value).map (key, ·)
    | _ => none
  | _ => []

def request (v : Json) : Request :=
  (extraOf v).foldl (fun r (key, value) => r.withExtra key value)
    { method := ((v.member? "method").bind text?).getD ""
      params := carried? "params" v
      notification := v.member? "notification" = some (.bool true)
      id := idOf v }

def object? (v : Json) : Option ErrorObject := do
  let code ← (v.member? "code").bind integer?
  let message ← (v.member? "message").bind text?
  return { code := Int64.ofInt code, message, data := carried? "data" v }

def response? (v : Json) : Option Response := do
  let result := (carried? "result" v).getD .null
  let start : Response ← match (v.member? "make").bind text? with
    | some "result" => some { id := idOf v, outcome := .result result }
    | some "error" => do
      let object ← (v.member? "object").bind object?
      some { id := idOf v, outcome := .error object }
    | some "ok" => some (.ok result)
    | _ => some (.ok .null)
  return (extraOf v).foldl (fun r (key, value) => r.withExtra key value) start

end JsonRpc.Recipe
