import JsonRpc.Transport.Fault

/-!
What a WebSocket connection yields, and the messages in it: one message is one text or binary
item, control items are passed over, and a close or the end stops reading.
-/

namespace JsonRpc.WebSocket

inductive Item where
  | text (value : String)
  | binary (bytes : Bytes)
  | ping (bytes : Bytes)
  | pong (bytes : Bytes)
  | frame (bytes : Bytes)
  | close
  | failure (cause : IoFault)
  deriving DecidableEq

namespace Item

def payload? : Item → Option Bytes
  | .text value => some (Text.Utf8.encode value)
  | .binary bytes => some bytes
  | _ => none

def isControl : Item → Bool
  | .ping _ | .pong _ | .frame _ => true
  | _ => false

def ofMessage (message : Bytes) : Item :=
  match Text.Utf8.decode? message with
  | some value => .text value
  | none => .binary message

end Item

def closed : TransportError :=
  .connectionClosed "websocket closed"

def lost (cause : IoFault) : TransportError :=
  .receiveFailed { cause with kind := .connectionReset }

def readMessage : List Item → Except TransportError Bytes × List Item
  | [] => (.error closed, [])
  | .text value :: rest => (.ok (Text.Utf8.encode value), rest)
  | .binary bytes :: rest => (.ok bytes, rest)
  | .close :: rest => (.error closed, rest)
  | .failure cause :: rest => (.error (lost cause), rest)
  | .ping _ :: rest | .pong _ :: rest | .frame _ :: rest => readMessage rest

end JsonRpc.WebSocket
