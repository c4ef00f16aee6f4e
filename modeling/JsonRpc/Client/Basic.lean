import JsonRpc.Client.Config
import JsonRpc.Client.Fault
import JsonRpc.Client.WireId
import JsonRpc.Envelope.Response

/-!
The state of a client. Callers hand commands to one owner, through a queue with limited room; the
owner holds the one live connection, writes the commands in order, hands the responses out, and
connects again after a loss. What has happened is kept as a history, so that what was written,
answered and closed can be read off.
-/

namespace JsonRpc

namespace Client

inductive Command where
  | call (request : Request)
  | notify (request : Request)
  | lend
  deriving DecidableEq

inductive Reply where
  | answered (response : Response)
  | sent
  | lent
  | failed (error : ClientError)
  | dropped
  deriving DecidableEq

inductive Exit where
  | shutdown
  | lost
  deriving DecidableEq

def Exit.error : Exit → ClientError
  | .shutdown => .closed
  | .lost => .interrupted

structure Job where
  ticket : Nat
  id : Option Int64
  request : Request
  /-- All of its bytes have left, although the write may not have returned. -/
  transmitted : Bool := false
  deriving DecidableEq

/-- What the owner is doing. Lines are connections, counted from zero. -/
inductive Phase where
  | connecting
  | backingOff (wake : Nat)
  | driving (line : Nat)
  | writing (line : Nat) (job : Job)
  /-- Done with a line; closes the writer once it is there. -/
  | finishing (line : Nat) (exit : Exit)
  | stopped
  deriving DecidableEq

inductive Occurrence where
  | attempted
  | connected (line : Nat)
  | accepted (ticket : Nat)
  | refused (ticket : Nat)
  | begun (line ticket : Nat) (id : Option Int64)
  /-- A message has left; it was written for a command, or by a borrower of the writer. -/
  | transmitted (line ticket : Nat) (message : Bytes)
  | written (line ticket : Nat)
  | received (line : Nat) (message : Bytes)
  | dispatched (line : Nat) (message : Bytes)
  | replied (ticket : Nat) (reply : Reply)
  | lineClosed (line : Nat)
  | shutDown
  | brokeDown
  deriving DecidableEq

/-- A writer in a borrower's hand, or on its way back. -/
structure Loan where
  ticket : Nat
  line : Nat
  deriving DecidableEq

structure Line where
  /-- What has arrived and is not read. -/
  inbox : List (Except TransportError Bytes) := []
  /-- What is read and not dispatched. -/
  buffer : List (Except TransportError Bytes) := []
  reading : Bool := true

inductive Closer where
  | waiting
  | joining
  | returned
  | abandoned
  deriving DecidableEq

end Client

structure Client where
  mailboxSize : Nat
  inboundBuffer : Nat
  phase : Client.Phase := .connecting
  shutdown : Bool := false
  /-- When the owner looked last there was no shutdown, and it acts on that. -/
  assured : Bool := true
  /-- All commands ever issued; a ticket is a place in this list. -/
  commands : List Client.Command := []
  abandoned : List Nat := []
  waiting : List Nat := []
  mailbox : List Nat := []
  pending : List (Int64 × Nat) := []
  nextId : Int64 := 1
  lines : List Client.Line := []
  /-- The line whose writer is in the owner's hand. -/
  hand : Option Nat := none
  /-- The ticket that the writer was lent to and has not come back from. -/
  lent : Option Nat := none
  loans : List Client.Loan := []
  returning : List Client.Loan := []
  closers : List Client.Closer := []
  /-- Nobody has begun to wait for the owner's end. -/
  joinable : Bool := true
  /-- What has happened, the latest first. -/
  history : List Client.Occurrence := [.attempted]

namespace Client

def start (config : ClientConfig) : Client :=
  { mailboxSize := config.validated.mailboxSize, inboundBuffer := config.validated.inboundBuffer }

def note (c : Client) (o : Occurrence) : Client :=
  { c with history := o :: c.history }

def reply (c : Client) (ticket : Nat) (r : Reply) : Client :=
  c.note (.replied ticket r)

def isStopped (c : Client) : Bool :=
  c.phase = .stopped

def reply? (c : Client) (ticket : Nat) : Option Reply :=
  c.history.reverse.findSome? fun
    | .replied t r => if t = ticket then some r else none
    | .refused t => if t = ticket then some (.failed .closed) else none
    | _ => none

def answered (c : Client) : List Nat :=
  c.history.reverse.filterMap fun
    | .replied ticket _ | .refused ticket => some ticket
    | _ => none

def transmissions (c : Client) : List (Nat × Bytes) :=
  c.history.reverse.filterMap fun
    | .transmitted line _ message => some (line, message)
    | _ => none

def attempts (c : Client) : Nat :=
  c.history.count .attempted

def closes (c : Client) (line : Nat) : Nat :=
  c.history.count (.lineClosed line)

end Client

end JsonRpc
