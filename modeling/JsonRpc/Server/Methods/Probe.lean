import JsonRpc.Envelope.Recipe
import JsonRpc.Server.Methods.Demo

/-!
Methods that probe a connection: each shows one thing that a handler may do.
-/

namespace JsonRpc.Server.Probe

def item? (request : Request) (n : Nat) : Option Json :=
  match request.params with
  | some (.array items) => items[n]?
  | _ => none

def ping : Handler := fun _ =>
  .now (.answer (.ok (.string "pong")))

def whoami : Handler := fun request =>
  .now (.answer (.ok (.array [.string request.method, .string request.id.display,
    .bool request.notification, .object request.extra])))

def add : Handler := fun request =>
  .ofExcept do
    let numbers ← request.paramsAs (Json.toList Json.toInt64)
    match checkedSum? numbers with
    | some sum => return .ofInt64 sum
    | none => throw (.internal "overflow")

def nap : Handler := fun request =>
  match request.paramsAs SleepParams.ofJson with
  | .error e => .now (.failure e)
  | .ok params =>
    { duration := some params.millis.toNat
      outcome := fun cancelled =>
        .answer (.ok (.array [.string request.id.display, .bool cancelled])) }

def hang : Handler := fun _ =>
  { duration := none, heedsCancel := true, outcome := fun _ => .answer (.ok .null) }

def fail : Handler := fun request =>
  let code := ((item? request 0).bind Json.asInt64?).getD 42
  let message := match item? request 1 with
    | some (.string s) => s
    | _ => "custom failure"
  let error := RpcError.new code message
  .now (.failure (match item? request 2 with
    | some data => error.withData data
    | none => error))

def oops : Handler := fun _ =>
  .now (.failure (.other "plain failure"))

def late : Handler := fun _ =>
  .now (.failure .deadlineExceeded)

def panic : Handler := fun request =>
  { duration := some (if request.params.isSome then 5 else 0), outcome := fun _ => .panic }

def answer : Handler := fun request =>
  .now (match Recipe.response? ((item? request 0).getD .null) with
    | some response => .answer response
    | none => .panic)

def object : Handler := fun request =>
  .now (match Recipe.object? ((item? request 0).getD .null) with
    | some object => .failure (.ofErrorObject object)
    | none => .panic)

def methods : Mux :=
  Mux.ofList [("ping", ping), ("echo", echo), ("whoami", whoami), ("add", add), ("sleep", sleep),
    ("nap", nap), ("hang", hang), ("fail", fail), ("oops", oops), ("late", late),
    ("panic", panic), ("answer", answer), ("object", object)]

end JsonRpc.Server.Probe
