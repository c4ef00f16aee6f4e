import JsonRpc.Client.Call
import JsonRpc.Client.Caller

/-!
Callers at work. A task waits for one thing that the client will tell it, and may be given a
deadline or be cancelled.
-/

namespace JsonRpc.Client

inductive Await where
  | response (ticket : Nat)
  | result (ticket : Nat) (decoder : Json.Decoder Json)
  | sent (ticket : Nat)
  | writer (ticket : Nat)
  | closed (closer : Nat)

inductive Gain where
  | response (response : Response)
  | value (value : Json)
  | writer (ticket : Nat)
  | done

namespace Await

def outcome? (c : Client) : Await → Option (Except ClientError Gain)
  | .response ticket =>
    (c.reply? ticket).map fun r => (r.toResponse c.shutdown).map .response
  | .result ticket decoder =>
    (c.reply? ticket).map fun r => do
      let response ← r.toResponse c.shutdown
      .value <$> response.resultAs decoder
  | .sent ticket => (c.reply? ticket).map fun r => (r.toSent c.shutdown).map fun _ => .done
  | .writer ticket => (c.reply? ticket).map fun r => (r.toLent c.shutdown).map fun _ => .writer ticket
  | .closed closer =>
    match c.closers[closer]? with
    | some .returned => some (.ok .done)
    | _ => none

def ticket? : Await → Option Nat
  | .response ticket | .result ticket _ | .sent ticket | .writer ticket => some ticket
  | .closed _ => none

def giveUp (c : Client) : Await → Client
  | .response ticket | .result ticket _ | .sent ticket | .writer ticket => c.giveUp ticket
  | .closed closer => c.abandonClose closer

end Await

inductive Progress where
  | running (goal : Await)
  | finished (outcome : Except ClientError Gain)
  | aborted

structure Task where
  tag : String
  deadline : Option Nat := none
  cancellable : Bool := false
  progress : Progress

namespace Task

def borrowed? (t : Task) : Option Nat :=
  match t.progress with
  | .finished (.ok (.writer ticket)) => some ticket
  | _ => none

def isRunning (t : Task) : Bool :=
  match t.progress with
  | .running _ => true
  | _ => false

def ticket? (t : Task) : Option Nat :=
  match t.progress with
  | .running goal => goal.ticket?
  | _ => none

def completion? (t : Task) : Option (String × Except ClientError Gain) :=
  match t.progress with
  | .finished outcome => some (t.tag, outcome)
  | _ => none

def finish (t : Task) (outcome : Except ClientError Gain) : Task :=
  { t with progress := .finished outcome }

def isDue (t : Task) (now : Nat) : Bool :=
  match t.deadline with
  | some deadline => deadline ≤ now
  | none => false

def poll? (now : Nat) (c : Client) (t : Task) : Option (Client × Task) :=
  match t.progress with
  | .running goal =>
    match goal.outcome? c with
    | some outcome => some (c, t.finish outcome)
    | none =>
      if t.isDue now then some (goal.giveUp c, t.finish (.error .deadlineExceeded)) else none
  | _ => none

def cancel (c : Client) (t : Task) : Client × Task :=
  match t.progress, t.cancellable with
  | .running goal, true => (goal.giveUp c, t.finish (.error .cancelled))
  | _, _ => (c, t)

def abort (c : Client) (t : Task) : Client × Task :=
  match t.progress with
  | .running goal => (goal.giveUp c, { t with progress := .aborted })
  | _ => (c, t)

end Task

end JsonRpc.Client
