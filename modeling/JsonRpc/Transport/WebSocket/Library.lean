import JsonRpc.Transport.WebSocket.Item

/-!
The library that carries items over a WebSocket connection, as far as the codec sees it, and how the
codec writes with it.
-/

namespace JsonRpc.WebSocket

structure Library where
  State : Type
  send : Item → State → Except IoFault Unit × State
  /-- What the other end is given, of all that was sent so far. -/
  arrivals : State → List Item

def sendFailure (cause : IoFault) : TransportError :=
  .sendFailed { cause with kind := .brokenPipe }

def Library.writeMessage (lib : Library) (message : Bytes) (s : lib.State) :
    Except TransportError Unit × lib.State :=
  let (result, s) := lib.send (Item.ofMessage message) s
  (result.mapError sendFailure, s)

end JsonRpc.WebSocket
