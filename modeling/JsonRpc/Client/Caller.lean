import JsonRpc.Client.Owner

/-!
What the callers of a client do: issue commands and give up on them, use a borrowed writer and give
it back, and close the client.
-/

namespace JsonRpc.Client

def hasRoom (c : Client) : Bool :=
  c.mailbox.length < c.mailboxSize

/--
Sends a command to the mailbox; its ticket is the number of commands before it. It waits behind
those that wait for room. A mailbox that has closed turns it away.
-/
def enqueue (c : Client) (command : Command) : Client :=
  let ticket := c.commands.length
  let c := { c with commands := c.commands ++ [command] }
  if c.isStopped then
    c.note (.refused ticket)
  else if c.waiting.isEmpty && c.hasRoom then
    { c with mailbox := c.mailbox ++ [ticket] }.note (.accepted ticket)
  else
    { c with waiting := c.waiting ++ [ticket] }

def issue? (c : Client) (command : Command) : Option Client :=
  if c.shutdown then none else some (c.enqueue command)

def enter? (c : Client) : Option Client :=
  match c.waiting with
  | [] => none
  | ticket :: rest =>
    if c.hasRoom then
      some ({ c with waiting := rest, mailbox := c.mailbox ++ [ticket] }.note (.accepted ticket))
    else none

def loan? (c : Client) (ticket : Nat) : Option Loan :=
  c.loans.find? (·.ticket = ticket)

def borrowerWrites? (c : Client) (ticket : Nat) (message : Bytes) : Option Client :=
  (c.loan? ticket).map fun loan => c.note (.transmitted loan.line loan.ticket message)

def release (c : Client) (ticket : Nat) : Client :=
  match c.loan? ticket with
  | some loan =>
    { c with
      loans := c.loans.filter (·.ticket ≠ ticket)
      returning := c.returning ++ [loan] }
  | none => c

/--
A caller gives up. A command that waits for room never enters the mailbox, and a writer that was
lent comes straight back.
-/
def giveUp (c : Client) (ticket : Nat) : Client :=
  { c with
    waiting := c.waiting.filter (· ≠ ticket)
    abandoned := if ticket ∈ c.abandoned then c.abandoned else ticket :: c.abandoned }.release
    ticket

def shutDown (c : Client) : Client :=
  if c.shutdown then c else { c with shutdown := true }.note .shutDown

def close (c : Client) : Client :=
  { c.shutDown with closers := c.closers ++ [.waiting] }

/-- It is the turn of a closer that waits for others: none before it waits, and none joins. -/
def isNext (c : Client) (closer : Nat) : Bool :=
  (c.closers.take closer).all (· ≠ .waiting) && c.closers.all (· ≠ .joining)

/--
A closer goes on. The first one waits for the owner's end; one that finds this done or given up
returns at once.
-/
def closerTurn? (c : Client) (closer : Nat) : Option Client :=
  match c.closers[closer]? with
  | some .waiting =>
    if c.isNext closer then
      if c.joinable then
        some { c with closers := c.closers.set closer .joining, joinable := false }
      else
        some { c with closers := c.closers.set closer .returned }
    else none
  | some .joining =>
    if c.isStopped then some { c with closers := c.closers.set closer .returned } else none
  | _ => none

def abandonClose (c : Client) (closer : Nat) : Client :=
  { c with closers := c.closers.modify closer fun
      | .waiting | .joining => .abandoned
      | done => done }

end JsonRpc.Client
