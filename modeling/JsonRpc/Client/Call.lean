import JsonRpc.Client.Basic
import JsonRpc.Json.Shape

/-!
What a caller hands to the client, and what it makes of the answer.
-/

namespace JsonRpc

namespace Request

def checked (r : Request) : Except ClientError Request :=
  if r.hasValidParams then .ok r
  else .error (.invalidRequest "params must be an array or an object")

def withArguments (r : Request) : Except EncodeFault Json → Except ClientError Request
  | .error fault => .error (.protocol (.encode fault))
  | .ok .null => r.checked
  | .ok params => { r with params := some params }.checked

end Request

def Response.result (r : Response) : Except ErrorObject Json :=
  match r.outcome with
  | .result value => .ok value
  | .error object => .error object

def Response.resultAs {α : Type} (r : Response) (d : Json.Decoder α) : Except ClientError α := do
  let value ← r.result.mapError .rpc
  (d value).mapError fun fault => .protocol (.decode (.shape fault))

namespace Client

/-- What a caller is told when its command was dropped without a word. -/
def gone (closed : Bool) : ClientError :=
  if closed then .closed else .interrupted

namespace Reply

def toResponse (closed : Bool) : Reply → Except ClientError Response
  | .answered response => .ok response
  | .failed e => .error e
  | .sent | .lent | .dropped => .error (gone closed)

def toSent (closed : Bool) : Reply → Except ClientError Unit
  | .sent => .ok ()
  | .failed e => .error e
  | .answered _ | .lent | .dropped => .error (gone closed)

def toLent (closed : Bool) : Reply → Except ClientError Unit
  | .lent => .ok ()
  | .failed e => .error e
  | .answered _ | .sent | .dropped => .error (gone closed)

end Reply

def commandOf (r : Request) : Except ClientError Command :=
  r.checked.map fun r => if r.notification then .notify r else .call r

def borrowedMessage (r : Request) : Except ClientError Bytes :=
  if r.notification then .ok r.encode
  else .error (.invalidRequest "only notifications can be sent through a codec guard")

end Client

end JsonRpc
