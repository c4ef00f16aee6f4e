import JsonRpc.Envelope.ErrorObject

/-!
What goes wrong between bytes and messages.
-/

namespace JsonRpc

inductive EncodeFault where
  | keyNotText
  deriving DecidableEq

def EncodeFault.message : EncodeFault → String
  | .keyNotText => "key must be a string"

inductive DecodeFault where
  | notJson
  | shape (fault : Json.ShapeFault)
  deriving DecidableEq

def DecodeFault.message : DecodeFault → String
  | .notJson => "not a JSON text"
  | .shape fault => fault.message

inductive ProtocolError where
  | encode (fault : EncodeFault)
  | decode (fault : DecodeFault)
  | invalidMessage (reason : String)
  deriving DecidableEq

namespace ProtocolError

def message : ProtocolError → String
  | .encode fault => "encode failed: " ++ fault.message
  | .decode fault => "decode failed: " ++ fault.message
  | .invalidMessage reason => "invalid message: " ++ reason

def code : ProtocolError → ErrorCode
  | .encode _ => ErrorCode.internalError
  | .decode _ => ErrorCode.parseError
  | .invalidMessage _ => ErrorCode.invalidRequest

def toErrorObject (e : ProtocolError) : ErrorObject :=
  ⟨e.code, e.message, none⟩

end ProtocolError

end JsonRpc
