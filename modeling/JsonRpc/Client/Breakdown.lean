import JsonRpc.Client.Run

/-!
What brings the owner of a client down: a pause that is longer than any span of time, and a buffer
with a room that no channel can have. A client with its settings does all that a client does, except
that the end of an attempt to connect may bring its owner down.
-/

namespace JsonRpc.Client

/-- The owner ends where it stands. Whom it was to answer it drops without a word. -/
def breakDown (c : Client) : Client :=
  let dropped := c.mailbox ++ c.pending.map (·.2)
  let turnedAway := c.waiting
  let c := { c with
    phase := .stopped
    hand := none
    mailbox := []
    waiting := []
    pending := []
    lines := c.lines.map Line.stop }
  let c := dropped.foldl (fun c ticket => c.reply ticket .dropped) (c.note .brokeDown)
  turnedAway.foldl (fun c ticket => c.note (.refused ticket)) c

def adopts? (c : Client) : Option Client :=
  c.connects?.map fun c => if ClientConfig.IsRoom c.inboundBuffer then c else c.breakDown

def backsOff? (c : Client) (config : ClientConfig) (now : Nat) (draw : UInt64) : Option Client :=
  match config.backoff? draw with
  | some pause => c.failsToConnect? (now + pause.millis)
  | none => (c.failsToConnect? now).map breakDown

inductive Incident where
  | attemptSucceeds
  | attemptFails (now : Nat) (draw : UInt64)
  | other (event : Event)

def Incident.event (config : ClientConfig) : Incident → Event
  | .attemptSucceeds => .connects
  | .attemptFails now draw => .failsToConnect (now + ((config.backoff? draw).map (·.millis)).getD 0)
  | .other event => event

def Event.endsAttempt : Event → Bool
  | .connects | .failsToConnect _ => true
  | _ => false

def undergo? (config : ClientConfig) (c : Client) : Incident → Option Client
  | .attemptSucceeds => c.adopts?.map look
  | .attemptFails now draw =>
    if draw ≤ config.maxDraw then (c.backsOff? config now draw).map look else none
  | .other event => if event.endsAttempt then none else c.step? event

def undergoAll? (config : ClientConfig) (c : Client) (incidents : List Incident) : Option Client :=
  incidents.foldlM (undergo? config) c

end JsonRpc.Client
