import JsonRpc.Client.Caller

/-!
The runs of a client: every interleaving of what its owner, its callers, its readers and the
transport do. The owner looks at the shutdown behind all that it does, and whenever it is woken.
-/

namespace JsonRpc.Client

inductive Event where
  | issue (command : Command)
  /-- A caller that found the client open sends its command only now. -/
  | enqueue (command : Command)
  | enter
  | giveUp (ticket : Nat)
  /-- The owner is woken and looks at the shutdown. -/
  | look
  | turn
  | connects
  | failsToConnect (wake : Nat)
  | wakes
  | transmits
  | writeReturns (succeeds : Bool)
  | arrives (line : Nat) (arrival : Except TransportError Bytes)
  | reads (line : Nat)
  | borrowerWrites (ticket : Nat) (message : Bytes)
  | release (ticket : Nat)
  | shutDown
  | close
  | closerTurn (closer : Nat)
  | abandonClose (closer : Nat)

def step? (c : Client) : Event → Option Client
  | .issue command => c.issue? command
  | .enqueue command => some (c.enqueue command)
  | .enter => c.enter?
  | .giveUp ticket => some (c.giveUp ticket)
  | .look => some c.look
  | .turn => c.turn?.map look
  | .connects => c.connects?.map look
  | .failsToConnect wake => (c.failsToConnect? wake).map look
  | .wakes => c.wakes?.map look
  | .transmits => c.transmits?
  | .writeReturns succeeds => (c.writeReturns? succeeds).map look
  | .arrives line arrival => some (c.arrives line arrival)
  | .reads line => c.reads? line
  | .borrowerWrites ticket message => c.borrowerWrites? ticket message
  | .release ticket => some (c.release ticket)
  | .shutDown => some c.shutDown
  | .close => some c.close
  | .closerTurn closer => c.closerTurn? closer
  | .abandonClose closer => some (c.abandonClose closer)

def run? (c : Client) (events : List Event) : Option Client :=
  events.foldlM step? c

end JsonRpc.Client
