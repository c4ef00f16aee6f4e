import JsonRpc.Transport.WebSocket.Item

/-!
One end of a WebSocket connection: how far its closing has come, what it still has to send, and what
it does with an item that arrives. The answer to a ping or a close is sent with whatever the end
does next.
-/

namespace JsonRpc.WebSocket

/-- The two ends differ once both closes have passed: it is the server that ends the connection. -/
inductive Role where
  | client
  | server
  deriving DecidableEq

inductive Standing where
  | active
  | closing
  | closedByOther
  | acknowledged
  | terminated
  deriving DecidableEq

def Standing.canReceive : Standing → Bool
  | .active | .closing => true
  | _ => false

inductive Stop where
  | over
  | failure (cause : IoFault)
  deriving DecidableEq

def Stop.item? : Stop → Option Item
  | .over => none
  | .failure cause => some (.failure cause)

structure Endpoint where
  role : Role
  standing : Standing := .active
  /-- The answer to a ping or a close that has arrived. -/
  answer : Option Item := none
  /-- Handed over for sending, and kept while the other end cannot be reached. -/
  unsent : List Item := []
  /-- Sent, and not yet taken by the other end. -/
  sent : List Item := []
  ended : Bool := false

namespace Endpoint

def reset : IoFault :=
  ⟨.other, "connection reset without closing handshake"⟩

def sendAfterClosing : IoFault :=
  ⟨.other, "sending after closing is not allowed"⟩

def oversizedControl : IoFault :=
  ⟨.other, "control frame too big"⟩

def maxControl : Nat := 125

def isOver (e : Endpoint) : Bool :=
  e.standing = .terminated || (e.role = .server && !e.standing.canReceive)

def settle (e : Endpoint) : Except Stop Unit × Endpoint :=
  if e.isOver then (.error .over, { e with standing := .terminated }) else (.ok (), e)

def flush (reachable : Bool) (e : Endpoint) : Except Stop Unit × Endpoint :=
  let unsent := e.unsent ++ e.answer.toList
  if unsent.isEmpty || reachable then
    settle { e with answer := none, unsent := [], sent := e.sent ++ unsent }
  else
    (.error (.failure reset), { e with answer := none, unsent })

def send (reachable : Bool) (item : Item) (e : Endpoint) : Except Stop Unit × Endpoint :=
  match e.standing with
  | .active => flush reachable { e with unsent := e.unsent ++ [item] }
  | _ => (.error (.failure sendAfterClosing), e)

def close (reachable : Bool) (e : Endpoint) : Except Stop Unit × Endpoint :=
  match e.standing with
  | .active =>
    flush reachable { e with standing := .closing, unsent := e.unsent ++ [.close] }
  | _ => flush reachable e

def prepare (reachable : Bool) (e : Endpoint) : Except Stop Unit × Endpoint :=
  if e.answer.isSome then e.flush reachable else e.settle

def take (item : Item) (e : Endpoint) : Except Stop Item × Endpoint :=
  match item with
  | .ping bytes =>
    if maxControl < bytes.length then (.error (.failure oversizedControl), e)
    else if e.standing = .active then (.ok item, { e with answer := some (.pong bytes) })
    else (.ok item, e)
  | .pong bytes =>
    if maxControl < bytes.length then (.error (.failure oversizedControl), e) else (.ok item, e)
  | .close =>
    match e.standing with
    | .active => (.ok item, { e with standing := .closedByOther, answer := some .close })
    | .closing => (.ok item, { e with standing := .acknowledged })
    | _ => (.ok item, e)
  | _ => (.ok item, e)

def stop (e : Endpoint) (reason : Stop) : Option Item × Endpoint :=
  (reason.item?, { e with ended := true })

def atEnd (e : Endpoint) : Stop :=
  match e.standing with
  | .closedByOther | .acknowledged => .over
  | _ => .failure reset

/--
The next item that is not passed over, of those in `arriving`, and what arrives after it. Nothing
if it cannot have arrived yet; at the end of the connection there is no item.
-/
def receive? (reachable : Bool) : (arriving : List Item) → Endpoint →
    Option (Option Item) × List Item × Endpoint
  | arriving, e =>
    if e.ended then (some none, arriving, e)
    else match e.prepare reachable with
      | (.error reason, e) =>
        let (item, e) := e.stop reason
        (some item, arriving, e)
      | (.ok (), e) =>
        match arriving with
        | [] =>
          if reachable then (none, [], e)
          else
            let (item, e) := { e with standing := .terminated }.stop e.atEnd
            (some item, [], e)
        | next :: rest =>
          match e.take next with
          | (.error reason, e) =>
            let (item, e) := e.stop reason
            (some item, rest, e)
          | (.ok item, e) =>
            if item.isControl then receive? reachable rest e else (some (some item), rest, e)

end Endpoint

def Stop.cause : Stop → IoFault
  | .over => Endpoint.sendAfterClosing
  | .failure cause => cause

end JsonRpc.WebSocket
