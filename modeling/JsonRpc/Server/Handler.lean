import JsonRpc.Envelope.Response

/-!
Handlers of requests. A handler is a plan for each request: how long its work takes, whether it
ends early when the request is cancelled, and what it then answers.
-/

namespace JsonRpc.Server

inductive HandlerOutcome where
  | answer (response : Response)
  | failure (error : RpcError)
  | panic
  deriving DecidableEq

def panicked : ErrorObject :=
  ⟨ErrorCode.internalError, "handler panicked", none⟩

def HandlerOutcome.response (id : Id) : HandlerOutcome → Response
  | .answer response => { response with id }
  | .failure error => { id, outcome := .error error.toErrorObject }
  | .panic => { id, outcome := .error panicked }

structure Handling where
  /-- The milliseconds that the work takes; without them it goes on until the token fires. -/
  duration : Option Nat := some 0
  heedsCancel : Bool := false
  outcome : (cancelled : Bool) → HandlerOutcome

namespace Handling

def now (outcome : HandlerOutcome) : Handling :=
  { outcome := fun _ => outcome }

def ofExcept : Except RpcError Json → Handling
  | .ok result => now (.answer (.ok result))
  | .error e => now (.failure e)

def isOver (h : Handling) (elapsed : Nat) (cancelled : Bool) : Bool :=
  (h.heedsCancel && cancelled) ||
    match h.duration with
    | some d => d ≤ elapsed
    | none => false

end Handling

abbrev Handler := Request → Handling

end JsonRpc.Server
