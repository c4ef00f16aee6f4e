import JsonRpc.Json.Shape

/-!
Error codes and the error member of a response.
-/

namespace JsonRpc

abbrev ErrorCode := Int64

namespace ErrorCode

def parseError : ErrorCode := -32700

def invalidRequest : ErrorCode := -32600

def methodNotFound : ErrorCode := -32601

def invalidParams : ErrorCode := -32602

def internalError : ErrorCode := -32603

/-- A handler failed and named no code. -/
def unknownError : ErrorCode := -32001

def requestCancelled : ErrorCode := -32800

def ofJson : Json.Decoder ErrorCode :=
  Json.toInt64

end ErrorCode

structure ErrorObject where
  code : ErrorCode
  message : String
  data : Option Json := none
  deriving DecidableEq

namespace ErrorObject

def withData (e : ErrorObject) (data : Json) : ErrorObject :=
  { e with data := some data }

def text (e : ErrorObject) : String :=
  e.message ++ " (code " ++ Text.decimalInt e.code.toInt ++ ")"

def members (e : ErrorObject) : Json.Members :=
  [("code", .ofInt64 e.code), ("message", .string e.message)] ++
    match e.data with
    | none => []
    | some data => [("data", data)]

def written (e : ErrorObject) : Json :=
  .object e.members

def toJson (e : ErrorObject) : Json :=
  .object (Keyed.ofList e.members)

structure Fields where
  code : Option ErrorCode := none
  message : Option String := none
  data : Option Json := none

def Fields.read (f : Fields) (key : String) (v : Json) : Except Json.ShapeFault Fields := do
  if key = "code" then return { f with code := some (← ErrorCode.ofJson v) }
  else if key = "message" then return { f with message := some (← Json.toText v) }
  else if key = "data" then return { f with data := ← Json.toOption Json.toJson v }
  else return f

def Fields.finish (f : Fields) : Except Json.ShapeFault ErrorObject :=
  match f.code, f.message with
  | none, _ => .error (.missingField "code")
  | _, none => .error (.missingField "message")
  | some code, some message => .ok ⟨code, message, f.data⟩

def ofJson : Json.Decoder ErrorObject
  | .object members => do
    (← members.foldlM (fun f (key, v) => f.read key v) ({} : Fields)).finish
  | .array [] => .error (.wrongLength 0 "struct ErrorObject with 3 elements")
  | .array [code] => do
    let _ ← ErrorCode.ofJson code
    .error (.wrongLength 1 "struct ErrorObject with 3 elements")
  | .array [code, message] => return ⟨← ErrorCode.ofJson code, ← Json.toText message, none⟩
  | .array (code :: message :: data :: rest) => do
    let e : ErrorObject :=
      ⟨← ErrorCode.ofJson code, ← Json.toText message, ← Json.toOption Json.toJson data⟩
    if rest.isEmpty then return e else .error (.wrongLength (rest.length + 3) Json.fewerElements)
  | v => Json.refuse "struct ErrorObject" v

end ErrorObject

end JsonRpc
