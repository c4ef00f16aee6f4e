/-!
Virtual time. A system does all it can at an instant before time goes on, and time goes on only to
instants at which something is due.
-/

namespace JsonRpc

/-- A system in virtual time; instants are counted in milliseconds. -/
structure Machine (σ : Type) where
  step? : (now : Nat) → σ → Option σ
  wake? : (now : Nat) → σ → Option Nat
  /-- A bound of the number of things that can happen at one instant. -/
  effort : σ → Nat

namespace Machine

variable {σ : Type}

def iterate (m : Machine σ) (now : Nat) : (fuel : Nat) → σ → σ
  | 0, s => s
  | fuel + 1, s =>
    match m.step? now s with
    | some s => iterate m now fuel s
    | none => s

def settle (m : Machine σ) (now : Nat) (s : σ) : σ :=
  m.iterate now (m.effort s) s

/--
All that happens until the instant `target`, with what is due then, or until `stop` holds; tells
the instant of the last thing that was due.
-/
def advanceUntil (m : Machine σ) (stop : σ → Bool) (now target : Nat) (s : σ) : Nat × σ :=
  if stop s then (now, s)
  else match m.wake? now s with
    | some wake =>
      if now < wake ∧ wake ≤ target then
        advanceUntil m stop wake target (m.settle wake s)
      else (now, s)
    | none => (now, s)
termination_by target - now

def advance (m : Machine σ) (now target : Nat) (s : σ) : σ :=
  (m.advanceUntil (fun _ => false) now target s).2

end Machine

def earliestAfter (now : Nat) (instants : List Nat) : Option Nat :=
  (instants.filter (now < ·)).min?

end JsonRpc
