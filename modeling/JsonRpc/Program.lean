import JsonRpc.Link.Scenario
import JsonRpc.Server.Listener
import JsonRpc.Server.Methods.Demo

/-!
The demonstration program: a server, a client, or both ends in one process.
-/

namespace JsonRpc.Program

def defaultLogFilter : String := "info"

def defaultAddress : String := "127.0.0.1:4000"

inductive Mode where
  | serve (addr : String)
  | call (addr : String)
  | both

def Mode.ofArgs : List String → Mode
  | ["serve"] => .serve defaultAddress
  | "serve" :: addr :: _ => .serve addr
  | ["call"] => .call defaultAddress
  | "call" :: addr :: _ => .call addr
  | _ => .both

def noNetwork : IoFault :=
  ⟨.other, "network is not available"⟩

def serve (addr : String) : Except Failure Unit := do
  let _ ← Server.Listener.bind addr
  .error (.io noNetwork)

def connect (addr : String) : Except TransportError Unit := do
  let _ ← Address.toConnect addr
  .error (.connectFailed noNetwork)

def shown (name : String) : Option (Except ClientError Client.Gain) → String
  | some (.ok (.value v)) => name ++ " -> " ++ v.render
  | some (.ok (.response r)) => name ++ " -> " ++ r.written.render
  | some (.ok _) => name ++ " -> done"
  | some (.error e) =>
    name ++ " -> " ++ e.message ++ " (code " ++ Text.decimalInt e.code.toInt ++ ")"
  | none => name ++ " -> no answer"

def conversation : List String :=
  let tag := Link.Scenario.turn
  let number (n : Int64) : Json := .ofInt64 n
  let s := Link.Scenario.start {} Server.Demo.methods.handler
  let s := s.await (·.callMethod tag "echo" (.ok (.object [("hello", .string "world")])) Json.toJson)
  let echoed := shown "echo" s.outcome?
  let s := s.await (·.callMethod tag "add"
    (.ok (.array [number 1, number 2, number 3, number 4])) Json.toJson)
  let sum := shown "add" s.outcome?
  let s := s.await (·.notify tag "log"
    (.ok (.array [.string "fire", .string "and", .string "forget"])))
  let s := s.await (·.call tag
    { method := "sleep", params := some (.object [("millis", number 5000)]) } (some 100) false)
  [echoed, sum, shown "sleep" s.outcome?]

end JsonRpc.Program
