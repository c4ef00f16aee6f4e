import JsonRpc.Transport.WebSocket.Endpoint
import JsonRpc.Transport.WebSocket.Library

/-!
A WebSocket connection of two ends, of which one is ours and the other may go away. What one end
has sent arrives at the other in order, also after the sender has gone.
-/

namespace JsonRpc.WebSocket

structure Pipe where
  ours : Endpoint := { role := .server }
  peer : Endpoint := { role := .client }
  connected : Bool := true

namespace Pipe

def library : Library where
  State := Pipe
  send item p :=
    let (result, ours) := p.ours.send p.connected item
    (result.mapError Stop.cause, { p with ours })
  arrivals p := p.ours.sent

def read? (p : Pipe) : Option (Except TransportError Bytes) × Pipe :=
  let (item, arriving, ours) := p.ours.receive? p.connected p.peer.sent
  (item.map fun item => (readMessage item.toList).1,
    { p with ours, peer := { p.peer with sent := arriving } })

def write (p : Pipe) (message : Bytes) : Except TransportError Unit × Pipe :=
  library.writeMessage message p

def close (p : Pipe) : Except TransportError Unit × Pipe :=
  let (result, ours) := p.ours.close p.connected
  match result with
  | .error .over => (.ok (), { p with ours })
  | result => (result.mapError fun reason => sendFailure reason.cause, { p with ours })

def peerSend (p : Pipe) (item : Item) : Except Stop Unit × Pipe :=
  let (result, peer) := p.peer.send true item
  (result, { p with peer })

def peerClose (p : Pipe) : Except Stop Unit × Pipe :=
  match p.peer.standing with
  | .active =>
    let (result, peer) := p.peer.close true
    (result, { p with peer })
  | _ => (.error (.failure Endpoint.sendAfterClosing), p)

def peerDrop (p : Pipe) : Pipe :=
  { p with connected := false }

def peerRead? (p : Pipe) : Option (Option Item) × Pipe :=
  let (item, arriving, peer) := p.peer.receive? true p.ours.sent
  (item, { p with peer, ours := { p.ours with sent := arriving } })

end Pipe

end JsonRpc.WebSocket
