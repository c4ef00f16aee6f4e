import JsonRpc.Failure
import JsonRpc.Transport.Address

/-!
Listening for connections.
-/

namespace JsonRpc.Server.Listener

def bind (addr : String) : Except Failure Address :=
  (Address.toBind addr).mapError .io

def run {α : Type} : List (Except IoFault α) → List α × Option TransportError
  | [] => ([], none)
  | .error cause :: _ => ([], some (.acceptFailed cause))
  | .ok connection :: rest => ((connection :: (run rest).1), (run rest).2)

end JsonRpc.Server.Listener
