import JsonRpc.Envelope.ErrorObject

/-!
The errors that a handler answers with, and their form in a response.
-/

namespace JsonRpc

inductive RpcError where
  | coded (code : ErrorCode) (message : String) (data : Option Json)
  | cancelled
  | deadlineExceeded
  | other (message : String)
  deriving DecidableEq

namespace RpcError

def message : RpcError → String
  | .coded _ message _ => message
  | .cancelled => "request cancelled"
  | .deadlineExceeded => "deadline exceeded"
  | .other message => message

def code : RpcError → ErrorCode
  | .coded code _ _ => code
  | .cancelled | .deadlineExceeded => ErrorCode.requestCancelled
  | .other _ => ErrorCode.unknownError

def data? : RpcError → Option Json
  | .coded _ _ data => data
  | _ => none

def new (code : ErrorCode) (message : String) : RpcError :=
  .coded code message none

def methodNotFound (method : String) : RpcError :=
  new ErrorCode.methodNotFound ("unknown method " ++ Text.quoted method)

def invalidParams (message : String) : RpcError :=
  new ErrorCode.invalidParams message

def internal (message : String) : RpcError :=
  new ErrorCode.internalError message

def ofShapeFault (fault : Json.ShapeFault) : RpcError :=
  invalidParams fault.message

def withData (e : RpcError) (data : Json) : RpcError :=
  .coded e.code e.message (some data)

def withCode (e : RpcError) (code : ErrorCode) : RpcError :=
  .coded code e.message e.data?

def toErrorObject (e : RpcError) : ErrorObject :=
  ⟨e.code, e.message, e.data?⟩

def ofErrorObject (e : ErrorObject) : RpcError :=
  .coded e.code e.message e.data

end RpcError

end JsonRpc
