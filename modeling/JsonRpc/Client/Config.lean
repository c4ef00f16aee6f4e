/-!
The settings of a client, and how long it waits before it connects again.
-/

namespace JsonRpc

structure Duration where
  nanos : Nat
  in_range : nanos < 1000000000 <<< 64
  deriving DecidableEq

namespace Duration

def ofMillis (n : UInt64) : Duration :=
  ⟨1000000 * n.toNat, by have := n.toNat_lt; omega⟩

def millis (d : Duration) : Nat :=
  d.nanos / 1000000

def add? (a b : Duration) : Option Duration :=
  if h : a.nanos + b.nanos < 1000000000 <<< 64 then some ⟨a.nanos + b.nanos, h⟩ else none

end Duration

structure ClientConfig where
  reconnectDelay : Duration := .ofMillis 1000
  reconnectJitter : Duration := .ofMillis 250
  mailboxSize : Nat := 64
  inboundBuffer : Nat := 64
  deriving DecidableEq

namespace ClientConfig

def validated (c : ClientConfig) : ClientConfig :=
  { c with mailboxSize := max c.mailboxSize 1, inboundBuffer := max c.inboundBuffer 1 }

/-- The largest number of milliseconds that chance may add; the count is kept in a word. -/
def maxDraw (c : ClientConfig) : UInt64 :=
  UInt64.ofNat c.reconnectJitter.millis

def backoff? (c : ClientConfig) (draw : UInt64) : Option Duration :=
  c.reconnectDelay.add? (.ofMillis draw)

def maxRoom : Nat :=
  (1 <<< 61) - 1

def IsRoom (n : Nat) : Prop :=
  0 < n ∧ n ≤ maxRoom

instance : DecidablePred IsRoom :=
  fun n => inferInstanceAs (Decidable (0 < n ∧ n ≤ maxRoom))

end ClientConfig

end JsonRpc
