import JsonRpc.Client.Fault
import JsonRpc.Envelope.RpcError

/-!
The failures of all layers as one type.
-/

namespace JsonRpc

inductive Failure where
  | transport (error : TransportError)
  | protocol (error : ProtocolError)
  | rpc (error : RpcError)
  | client (error : ClientError)
  | io (fault : IoFault)
  deriving DecidableEq

namespace Failure

def message : Failure → String
  | .transport error => error.message
  | .protocol error => error.message
  | .rpc error => error.message
  | .client error => error.message
  | .io fault => "io error: " ++ fault.message

end Failure

inductive Cause where
  | io (fault : IoFault)
  | answer (object : ErrorObject)
  deriving DecidableEq

def TransportError.source? (e : TransportError) : Option Cause :=
  e.cause?.map .io

def ProtocolError.source? (_ : ProtocolError) : Option Cause :=
  none

def RpcError.source? (_ : RpcError) : Option Cause :=
  none

def ClientError.source? : ClientError → Option Cause
  | .rpc object => some (.answer object)
  | .protocol error => error.source?
  | .transport error => error.source?
  | .invalidRequest _ | .interrupted | .closed | .cancelled | .deadlineExceeded => none

def Failure.source? : Failure → Option Cause
  | .transport error => error.source?
  | .protocol error => error.source?
  | .rpc error => error.source?
  | .client error => error.source?
  | .io fault => some (.io fault)

end JsonRpc
