import JsonRpc.Envelope.Request

/-!
Responses and their JSON form. A response carries one outcome: a result, null included, or an
error object.
-/

namespace JsonRpc

inductive Outcome where
  | result (value : Json)
  | error (object : ErrorObject)
  deriving DecidableEq

structure Response where
  id : Id := .null
  outcome : Outcome
  extra : Json.Members := []
  deriving DecidableEq

namespace Response

/-- A successful response whose identifier is filled in later. -/
def ok (value : Json) : Response :=
  { outcome := .result value }

def withExtra (r : Response) (key : String) (value : Json) : Response :=
  { r with extra := Keyed.insert key value r.extra }

def isError (r : Response) : Bool :=
  match r.outcome with
  | .result _ => false
  | .error _ => true

def outcomeMember : Outcome → String × Json
  | .result value => ("result", value)
  | .error object => ("error", object.written)

def members (r : Response) : Json.Members :=
  [("jsonrpc", .string protocolVersion), ("id", r.id.toJson), outcomeMember r.outcome] ++
    foreignMembers r.extra

def written (r : Response) : Json :=
  .object r.members

def toJson (r : Response) : Json :=
  let outcome := match r.outcome with
    | .result value => ("result", value)
    | .error object => ("error", object.toJson)
  .object (Keyed.ofList
    ([("jsonrpc", .string protocolVersion), ("id", r.id.toJson), outcome] ++
      foreignMembers r.extra))

def encode (r : Response) : Bytes :=
  r.written.encode

def readId : Option Json → Except ProtocolError Id
  | some v => Id.ofJson v
  | none => .error (.invalidMessage "response is missing an id")

/--
The outcome that the members `result` and `error` give. A null error beside a result is no
error, and a null result beside an error is no result.
-/
def readOutcome : (result error : Option Json) → Except ProtocolError Outcome
  | some result, none | some result, some .null => .ok (.result result)
  | none, some error | some .null, some error =>
    match ErrorObject.ofJson error with
    | .ok object => .ok (.error object)
    | .error fault => .error (.decode (.shape fault))
  | _, _ => .error (.invalidMessage "response must carry exactly one of result or error")

def furtherMembers (members : Json.Members) : Json.Members :=
  ["jsonrpc", "id", "result", "error"].foldl (fun m key => Keyed.erase key m) members

def ofJson : Json → Except ProtocolError Response
  | .object members => do
    checkVersion (Keyed.find? "jsonrpc" members)
    let id ← readId (Keyed.find? "id" members)
    let outcome ← readOutcome (Keyed.find? "result" members) (Keyed.find? "error" members)
    return { id, outcome, extra := furtherMembers members }
  | _ => .error (.invalidMessage "response must be a JSON object")

def batchOfJson : Json → Except ProtocolError (List Response)
  | .array items => .ok (items.filterMap fun v => (ofJson v).toOption)
  | v => (ofJson v).map ([·])

def decodeBatch (message : Bytes) : Except ProtocolError (List Response) :=
  match Json.decode? message with
  | none => .error (.decode .notJson)
  | some v => batchOfJson v

end Response

end JsonRpc
