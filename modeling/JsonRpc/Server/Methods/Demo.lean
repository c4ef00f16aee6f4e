import JsonRpc.Server.Mux

/-!
The methods of the demonstration program.
-/

namespace JsonRpc.Server

structure SleepParams where
  millis : UInt64

namespace SleepParams

def ofJson : Json.Decoder SleepParams
  | .object members =>
    match Keyed.find? "millis" members with
    | some v => (Json.toUInt64 v).map (⟨·⟩)
    | none => .error (.missingField "millis")
  | .array [] => .error (.wrongLength 0 "struct SleepParams with 1 element")
  | .array [v] => (Json.toUInt64 v).map (⟨·⟩)
  | .array (v :: rest) => do
    let _ ← Json.toUInt64 v
    .error (.wrongLength (rest.length + 1) Json.fewerElements)
  | v => Json.refuse "struct SleepParams" v

end SleepParams

def checkedSum? (numbers : List Int64) : Option Int64 :=
  numbers.foldlM (fun sum n =>
    let next := sum.toInt + n.toInt
    if -(1 <<< 63 : Nat) ≤ next ∧ next < (1 <<< 63 : Nat) then some (Int64.ofInt next) else none) 0

def echo : Handler := fun request =>
  .now (.answer (.ok (request.params.getD .null)))

def sleep : Handler := fun request =>
  match request.paramsAs SleepParams.ofJson with
  | .error e => .now (.failure e)
  | .ok params =>
    { duration := some params.millis.toNat
      heedsCancel := true
      outcome := fun cancelled => if cancelled then .failure .cancelled else .answer (.ok .null) }

namespace Demo

def add : Handler := fun request =>
  match request.paramsAs (Json.toList Json.toInt64) with
  | .error e => .now (.failure e)
  | .ok numbers =>
    match checkedSum? numbers with
    | some sum => .now (.answer (.ok (.ofInt64 sum)))
    | none => .now .panic

def log : Handler := fun _ =>
  .now (.answer (.ok .null))

def methods : Mux :=
  Mux.ofList [("echo", echo), ("add", add), ("sleep", sleep), ("log", log)]

end Demo

end JsonRpc.Server
