import JsonRpc.Envelope.Id
import JsonRpc.Envelope.RpcError
import JsonRpc.Json.Parser

/-!
Requests and their JSON form. A notification has no identifier on the wire; a request has one,
and a null one is not an absent one. Members beside the six that the envelope owns are kept.
-/

namespace JsonRpc

def protocolVersion : String := "2.0"

def cancelMethod : String := "$/cancelRequest"

def reservedKeys : List String :=
  ["jsonrpc", "id", "method", "params", "result", "error"]

def foreignMembers (extra : Json.Members) : Json.Members :=
  extra.filter fun e => !reservedKeys.contains e.1

def checkVersion : Option Json → Except ProtocolError Unit
  | some (.string v) =>
    if v = protocolVersion then .ok () else .error (.invalidMessage "jsonrpc must be \"2.0\"")
  | _ => .error (.invalidMessage "jsonrpc must be \"2.0\"")

structure Request where
  method : String
  params : Option Json := none
  notification : Bool := false
  /-- Without meaning in a notification. -/
  id : Id := .null
  extra : Json.Members := []
  deriving DecidableEq

namespace Request

def withExtra (r : Request) (key : String) (value : Json) : Request :=
  { r with extra := Keyed.insert key value r.extra }

def hasValidParams (r : Request) : Bool :=
  match r.params with
  | none | some (.array _) | some (.object _) => true
  | some _ => false

def paramsAs {α : Type} (r : Request) (d : Json.Decoder α) : Except RpcError α :=
  (d (r.params.getD .null)).mapError RpcError.ofShapeFault

def members (r : Request) : Json.Members :=
  [("jsonrpc", .string protocolVersion)] ++
    (if r.notification then [] else [("id", r.id.toJson)]) ++
    [("method", .string r.method)] ++
    (match r.params with
      | none => []
      | some params => [("params", params)]) ++
    foreignMembers r.extra

def written (r : Request) : Json :=
  .object r.members

def toJson (r : Request) : Json :=
  .object (Keyed.ofList r.members)

def encode (r : Request) : Bytes :=
  r.written.encode

def readMethod : Option Json → Except ProtocolError String
  | some (.string method) =>
    if method = "" then .error (.invalidMessage "method must be a non-empty string")
    else .ok method
  | _ => .error (.invalidMessage "method must be a non-empty string")

def readParams : Option Json → Except ProtocolError (Option Json)
  | none => .ok none
  | some (.array items) => .ok (some (.array items))
  | some (.object members) => .ok (some (.object members))
  | some _ => .error (.invalidMessage "params must be an array or an object")

/-- Whether the message is a notification, and its identifier. -/
def readId : Option Json → Except ProtocolError (Bool × Id)
  | none => .ok (true, .null)
  | some v => (Id.ofJson v).map (false, ·)

def furtherMembers (members : Json.Members) : Json.Members :=
  ["jsonrpc", "method", "params", "id"].foldl (fun m key => Keyed.erase key m) members

/-- The request that a value is. Of several faults the first in the order below is told. -/
def ofJson : Json → Except ProtocolError Request
  | .object members => do
    checkVersion (Keyed.find? "jsonrpc" members)
    let method ← readMethod (Keyed.find? "method" members)
    let params ← readParams (Keyed.find? "params" members)
    let (notification, id) ← readId (Keyed.find? "id" members)
    return { method, params, notification, id, extra := furtherMembers members }
  | .array _ => .error (.invalidMessage "batch requests are not supported")
  | _ => .error (.invalidMessage "request must be a JSON object")

def decode (message : Bytes) : Except ProtocolError Request :=
  match Json.decode? message with
  | none => .error (.decode .notJson)
  | some v => ofJson v

end Request

end JsonRpc
