import JsonRpc.Client.Breakdown
import JsonRpc.Client.Task
import JsonRpc.Simulation

/-!
A client with its callers, its connections and a clock: which of the events that could happen do
happen, and when.
-/

namespace JsonRpc.Client

structure Gate where
  blocked : Bool := false
  failing : Option String := none

inductive Offer where
  | connection
  | failure (error : TransportError)

structure Scenario where
  config : ClientConfig
  client : Client := Client.start config
  now : Nat := 0
  offers : List Offer := []
  gates : List Gate := []
  tasks : List Task := []
  completed : List (String × Except ClientError Gain) := []
  handle : Bool := true

namespace Scenario

def gate (s : Scenario) (line : Nat) : Gate :=
  s.gates.getD line {}

def put (s : Scenario) (index : Nat) (client : Client) (task : Task) : Scenario :=
  { s with
    client
    tasks := s.tasks.set index task
    completed := s.completed ++ task.completion?.toList }

def undergo? (s : Scenario) (incident : Incident) : Option Scenario :=
  (s.client.undergo? s.config.validated incident).map ({ s with client := · })

def happen? (s : Scenario) (event : Event) : Option Scenario :=
  s.undergo? (.other event)

/-- The attempt to connect ends. Chance adds nothing to the pause before another one. -/
def dial? (s : Scenario) : Option Scenario :=
  match s.offers with
  | [] => none
  | .connection :: offers => (s.undergo? .attemptSucceeds).map ({ · with offers })
  | .failure _ :: offers => (s.undergo? (.attemptFails s.now 0)).map ({ · with offers })

def wakes? (s : Scenario) : Option Scenario :=
  match s.client.phase with
  | .backingOff wake =>
    if wake ≤ s.now then s.happen? .wakes else none
  | _ => none

def write? (s : Scenario) : Option Scenario :=
  match s.client.phase with
  | .writing line job =>
    let gate := s.gate line
    if job.transmitted then s.happen? (.writeReturns true)
    else if gate.blocked then none
    else if gate.failing.isSome then s.happen? (.writeReturns false)
    else s.happen? .transmits
  | _ => none

def closer? (s : Scenario) : Option Scenario :=
  (List.range s.client.closers.length).findSome? fun closer => s.happen? (.closerTurn closer)

def ready (s : Scenario) : List (Task × Nat × Client × Task) :=
  s.tasks.zipIdx.filterMap fun (task, index) =>
    (task.poll? s.now s.client).map fun next => (task, index, next)

/-- Of the tasks that can go on, the one that was told first what it waits for does. -/
def task? (s : Scenario) : Option Scenario :=
  let ready := s.ready
  let told := if ready.length ≤ 1 then [] else s.client.answered
  let turn (task : Task) : Nat := (task.ticket?.bind told.idxOf?).getD told.length
  (ready.mergeSort fun a b => turn a.1 ≤ turn b.1).head?.map fun (_, index, client, task) =>
    s.put index client task

/-- The client shuts down when its last handle is gone; every running task has one. -/
def lastHandle? (s : Scenario) : Option Scenario :=
  if s.handle || s.client.shutdown || s.tasks.any (·.isRunning) then none
  else some { s with client := s.client.shutDown }

/--
The next thing that happens. The owner looks at the shutdown, and does all it can before anyone else
goes on.
-/
def step? (now : Nat) (s : Scenario) : Option Scenario :=
  let s := { s with now, client := s.client.look }
  s.happen? .turn <|> s.write? <|> s.dial? <|> s.wakes? <|>
    s.happen? (.reads (s.client.lines.length - 1)) <|> s.happen? .enter <|> s.closer? <|>
    s.task? <|> s.lastHandle?

def wake? (now : Nat) (s : Scenario) : Option Nat :=
  let pause := match s.client.phase with
    | .backingOff wake => [wake]
    | _ => []
  earliestAfter now (pause ++ (s.tasks.filter (·.isRunning)).filterMap (·.deadline))

/--
A bound of what can happen at one instant: each command enters the mailbox, is taken, transmitted
and ended, each message is read and dispatched, and each attempt to connect may begin, end and lead
to a line that is left and closed.
-/
def effort (s : Scenario) : Nat :=
  let messages := s.client.lines.foldl (fun n l => n + l.inbox.length + l.buffer.length) 0
  5 * s.client.commands.length + 3 * messages + 5 * s.offers.length +
    2 * s.client.closers.length + 2 * s.tasks.length + 10

def machine : Machine Scenario where
  step? := step?
  wake? := wake?
  effort := effort

def settle (s : Scenario) : Scenario :=
  machine.settle s.now s

def start (config : ClientConfig) : Scenario :=
  { config }

def wait (s : Scenario) (millis : Nat) : Scenario :=
  let target := s.now + millis
  { machine.advance s.now target s with now := target }

def offer (s : Scenario) (o : Offer) : Scenario :=
  { s with
    offers := s.offers ++ [o]
    gates := match o with
      | .connection => s.gates ++ [({} : Gate)]
      | .failure _ => s.gates }

def begin (s : Scenario) (client : Client) (task : Task) : Scenario :=
  let (client, task) := (task.poll? s.now client).getD (client, task)
  { s with tasks := s.tasks ++ [task] }.put s.tasks.length client task

def launch (s : Scenario) (tag : String) (command : Except ClientError Command)
    (goal : Nat → Await) (timeout : Option Nat) (cancellable : Bool) : Scenario :=
  let task (progress : Progress) : Task :=
    { tag, deadline := timeout.map (s.now + ·), cancellable, progress }
  match command with
  | .error e => s.begin s.client (task (.finished (.error e)))
  | .ok command =>
    match s.client.issue? command with
    | none => s.begin s.client (task (.finished (.error .closed)))
    | some client => s.begin client (task (.running (goal s.client.commands.length)))

def call (s : Scenario) (tag : String) (request : Request) (timeout : Option Nat)
    (cancellable : Bool) : Scenario :=
  s.launch tag (commandOf request) (if request.notification then .sent else .response) timeout
    cancellable

def callMethod (s : Scenario) (tag method : String) (params : Except EncodeFault Json)
    (decoder : Json.Decoder Json) : Scenario :=
  let request : Except ClientError Request := { method : Request }.withArguments params
  s.launch tag (request.map .call) (.result · decoder) none false

def notify (s : Scenario) (tag method : String) (params : Except EncodeFault Json) : Scenario :=
  let request : Except ClientError Request :=
    { method, notification := true : Request }.withArguments params
  s.launch tag (request.map .notify) .sent none false

def borrow (s : Scenario) (tag : String) : Scenario :=
  s.launch tag (.ok .lend) .writer none false

def close (s : Scenario) (tag : String) : Scenario :=
  s.begin s.client.close
    { tag, progress := .running (.closed s.client.closers.length) }

def latest? (s : Scenario) (tag : String) (p : Task → Bool) : Option (Task × Nat) :=
  (s.tasks.zipIdx.filter fun t => t.1.tag = tag && p t.1).getLast?

def alter (s : Scenario) (tag : String) (p : Task → Bool) (f : Client → Task → Client × Task) :
    Scenario :=
  match s.latest? tag p with
  | some (task, index) =>
    if task.isRunning then
      let (client, task) := f s.client task
      s.put index client task
    else s
  | none => s

def cancel (s : Scenario) (tag : String) : Scenario :=
  s.alter tag (·.cancellable) Task.cancel

def abort (s : Scenario) (tag : String) : Scenario :=
  s.alter tag (fun _ => true) Task.abort

def dropHandle (s : Scenario) : Scenario :=
  { s with handle := false }

def isUnused (s : Scenario) (line : Nat) : Bool :=
  s.client.lines.length ≤ line

def arrive (s : Scenario) (line : Nat) (arrival : Except TransportError Bytes) : Scenario :=
  { s with client := s.client.arrives line arrival }

def treat (s : Scenario) (line : Nat) (f : Gate → Gate) : Scenario :=
  { s with gates := s.gates.modify line f }

def loan? (s : Scenario) (tag : String) : Option Loan := do
  let (task, _) ← s.latest? tag (·.borrowed?.isSome)
  s.client.loan? (← task.borrowed?)

def borrowerWrites (s : Scenario) (tag : String) (message : Bytes) :
    Except ClientError Unit × Scenario :=
  match s.loan? tag with
  | none => (.error .closed, s)
  | some loan =>
    match (s.gate loan.line).failing, s.client.borrowerWrites? loan.ticket message with
    | some reason, _ => (.error (.transport (.sendFailed ⟨.other, reason⟩)), s)
    | none, some client => (.ok (), { s with client })
    | none, none => (.error .closed, s)

def borrowerNotifies (s : Scenario) (tag : String) (request : Request) :
    Except ClientError Unit × Scenario :=
  match borrowedMessage request with
  | .error e => (.error e, s)
  | .ok message => s.borrowerWrites tag message

def release (s : Scenario) (tag : String) : Scenario :=
  match s.loan? tag with
  | none => s
  | some loan => { s with client := s.client.release loan.ticket }

end Scenario

end JsonRpc.Client
