import JsonRpc.Envelope.Fault
import JsonRpc.Transport.Fault

/-!
Why a call of a client fails.
-/

namespace JsonRpc

inductive ClientError where
  | invalidRequest (reason : String)
  | interrupted
  | closed
  | cancelled
  | deadlineExceeded
  | rpc (object : ErrorObject)
  | protocol (error : ProtocolError)
  | transport (error : TransportError)
  deriving DecidableEq

namespace ClientError

def message : ClientError → String
  | .invalidRequest reason => "invalid request: " ++ reason
  | .interrupted => "connection interrupted"
  | .closed => "client closed"
  | .cancelled => "call cancelled"
  | .deadlineExceeded => "deadline exceeded"
  | .rpc object => "server error: " ++ object.text
  | .protocol error => error.message
  | .transport error => error.message

def code : ClientError → ErrorCode
  | .invalidRequest _ => ErrorCode.invalidRequest
  | .cancelled | .deadlineExceeded => ErrorCode.requestCancelled
  | .rpc object => object.code
  | .interrupted | .closed | .protocol _ | .transport _ => ErrorCode.unknownError

end ClientError

end JsonRpc
