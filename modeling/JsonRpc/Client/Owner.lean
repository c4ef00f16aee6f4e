import JsonRpc.Client.Basic

/-!
The owner of a client's connection. At every turn it does the first of these that it can: end when
the client shuts down, unless the writer is lent; take a lent writer back; dispatch a message;
write the next command, unless the writer is lent. It looks at the shutdown before it waits and
whenever it is woken, and does what it waited for without looking again: a shutdown may come between
the look and the deed.
-/

namespace JsonRpc

def Request.numbered (r : Request) (id : Int64) : Request :=
  { r with notification := false, id := .text (WireId.format id) }

namespace Client

/-- The owner waits for something that a shutdown cuts short. -/
def watches (c : Client) : Bool :=
  match c.phase with
  | .connecting | .backingOff _ | .writing _ _ => true
  | .driving _ => c.lent.isNone
  | .finishing _ _ | .stopped => false

def look (c : Client) : Client :=
  { c with assured := c.watches && !c.shutdown }

/-- The client shuts down, and the owner knows or will look before it does anything else. -/
def warned (c : Client) : Bool :=
  c.shutdown && !c.assured

def callOf? : Id → Option Int64
  | .text s => WireId.parse? s
  | _ => none

def deliver (c : Client) (response : Response) : Client :=
  match callOf? response.id with
  | none => c
  | some id =>
    match c.pending.lookup id with
    | none => c
    | some ticket =>
      { c with pending := c.pending.filter (·.1 ≠ id) }.reply ticket (.answered response)

def dispatch (c : Client) (message : Bytes) : Client :=
  match Response.decodeBatch message with
  | .error _ => c
  | .ok responses => responses.foldl deliver c

def reject (c : Client) (ticket : Nat) (error : ClientError) : Client :=
  match c.commands[ticket]? with
  | some .lend => c.reply ticket .dropped
  | _ => c.reply ticket (.failed error)

def Line.stop (l : Line) : Line :=
  { l with reading := false, buffer := [] }

def failPending (c : Client) (exit : Exit) : Client :=
  c.pending.foldl (fun c (_, ticket) => c.reply ticket (.failed exit.error)) { c with pending := [] }

def leave (c : Client) (line : Nat) (exit : Exit) : Client :=
  { c with lines := c.lines.modify line Line.stop, phase := .finishing line exit }.failPending exit

def stop (c : Client) : Client :=
  let queued := c.mailbox
  let turnedAway := c.waiting
  let c := { c with phase := .stopped, mailbox := [], waiting := [] }
  let c := queued.foldl (fun c ticket => c.reject ticket .closed) c
  turnedAway.foldl (fun c ticket => c.note (.refused ticket)) c

def attempt (c : Client) : Client :=
  { c with phase := .connecting }.note .attempted

def closeLine (c : Client) (exit : Exit) : Client :=
  let c := match c.hand with
    | some line => { c with hand := none }.note (.lineClosed line)
    | none => c
  match exit with
  | .shutdown => c.stop
  | .lost => c.attempt

def reclaim? (c : Client) : Option Client :=
  match c.lent with
  | none => none
  | some ticket =>
    (c.returning.find? (·.ticket = ticket)).map fun loan =>
      { c with
        hand := some loan.line
        lent := none
        returning := c.returning.filter (·.ticket ≠ ticket) }

def begin (c : Client) (line : Nat) (job : Job) : Client :=
  { c with phase := .writing line job }.note (.begun line job.ticket job.id)

def lend (c : Client) (ticket line : Nat) : Client :=
  let loan : Loan := ⟨ticket, line⟩
  let c := { c with hand := none, lent := some ticket }.reply ticket .lent
  if ticket ∈ c.abandoned then { c with returning := c.returning ++ [loan] }
  else { c with loans := c.loans ++ [loan] }

def carryOut (c : Client) (line ticket : Nat) : Client :=
  match c.hand with
  | none => (c.reject ticket .interrupted).leave line .lost
  | some _ =>
    match c.commands[ticket]? with
    | some (.call request) =>
      if ticket ∈ c.abandoned then c.reply ticket .dropped
      else { c with nextId := c.nextId + 1 }.begin line
        { ticket, id := some c.nextId, request := request.numbered c.nextId }
    | some (.notify request) => c.begin line { ticket, id := none, request }
    | some .lend => c.lend ticket line
    | none => c

def take? (c : Client) (line : Nat) : Option Client :=
  match c.mailbox with
  | [] => none
  | ticket :: rest => some ({ c with mailbox := rest }.carryOut line ticket)

def takeInbound? (c : Client) (line : Nat) : Option Client :=
  match c.lines[line]? with
  | some { buffer := .ok message :: rest, .. } =>
    some (({ c with lines := c.lines.modify line fun l => { l with buffer := rest } }.note
      (.dispatched line message)).dispatch message)
  | some { buffer := .error _ :: _, .. } => some (c.leave line .lost)
  | _ => none

def turn? (c : Client) : Option Client :=
  match c.phase with
  | .connecting | .backingOff _ => if c.warned then some c.stop else none
  | .driving line =>
    match c.lent with
    | none => if c.warned then some (c.leave line .shutdown)
      else c.takeInbound? line <|> c.take? line
    | some _ => c.reclaim? <|> c.takeInbound? line
  | .writing line job =>
    if c.warned then some ((c.reply job.ticket (.failed .closed)).leave line .shutdown) else none
  | .finishing _ exit =>
    match c.lent with
    | none => some (c.closeLine exit)
    | some _ => c.reclaim?
  | .stopped => none

def connects? (c : Client) : Option Client :=
  match c.phase, c.warned with
  | .connecting, false =>
    let line := c.lines.length
    some ({ c with
      phase := .driving line
      lines := c.lines ++ [({} : Line)]
      hand := some line }.note (.connected line))
  | _, _ => none

def failsToConnect? (c : Client) (wake : Nat) : Option Client :=
  match c.phase, c.warned with
  | .connecting, false => some { c with phase := .backingOff wake }
  | _, _ => none

def wakes? (c : Client) : Option Client :=
  match c.phase, c.warned with
  | .backingOff _, false => some c.attempt
  | _, _ => none

def transmits? (c : Client) : Option Client :=
  match c.phase with
  | .writing line job =>
    if c.warned || job.transmitted then none
    else some ({ c with phase := .writing line { job with transmitted := true } }.note
      (.transmitted line job.ticket job.request.encode))
  | _ => none

def await (c : Client) (id : Int64) (ticket : Nat) : Client :=
  let kept := { c with pending := c.pending.filter (·.1 ≠ id) ++ [(id, ticket)] }
  match c.pending.lookup id with
  | some earlier => kept.reply earlier .dropped
  | none => kept

def writeReturns? (c : Client) (succeeds : Bool) : Option Client :=
  match c.phase with
  | .writing line job =>
    if c.warned then none
    else if succeeds then
      if job.transmitted then
        let c := { c with phase := .driving line }.note (.written line job.ticket)
        some (match job.id with
          | some id => c.await id job.ticket
          | none => c.reply job.ticket .sent)
      else none
    else some ((c.reply job.ticket (.failed .interrupted)).leave line .lost)
  | _ => none

def arrives (c : Client) (line : Nat) (arrival : Except TransportError Bytes) : Client :=
  { c with lines := c.lines.modify line fun l => { l with inbox := l.inbox ++ [arrival] } }

def Line.read? (l : Line) (room : Nat) : Option (Except TransportError Bytes × Line) :=
  match l.inbox with
  | [] => none
  | arrival :: rest =>
    if l.reading && l.buffer.length < room then
      some (arrival,
        { inbox := rest, buffer := l.buffer ++ [arrival], reading := arrival.toOption.isSome })
    else none

def reads? (c : Client) (line : Nat) : Option Client :=
  (c.lines[line]?.bind (·.read? c.inboundBuffer)).map fun (arrival, l) =>
    let c := { c with lines := c.lines.set line l }
    match arrival with
    | .ok message => c.note (.received line message)
    | .error _ => c

end Client

end JsonRpc
