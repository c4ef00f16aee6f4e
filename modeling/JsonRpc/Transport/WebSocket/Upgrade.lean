import JsonRpc.Text.Numeral
import JsonRpc.Transport.Fault
import JsonRpc.Transport.WebSocket.RequestTarget

/-!
The HTTP request that turns a connection into a WebSocket connection, and the address that one is
asked for at. Bytes are taken as characters one by one: the grammar is that of ASCII.
-/

namespace JsonRpc.WebSocket

structure RequestHead where
  method : String
  target : RequestTarget
  minorVersion : Nat
  fields : List (String × String)

def expect? : (start : List Char) → List Char → Option (List Char)
  | [], cs => some cs
  | _ :: _, [] => none
  | s :: start, c :: cs => if s = c then expect? start cs else none

namespace RequestHead

def isTokenChar (c : Char) : Bool :=
  c.isAlphanum || "!#$%&'*+-.^_|~".toList.contains c || c = '\x60'

def isTargetChar (c : Char) : Bool :=
  '\x21' ≤ c && c ≠ '\x7f'

def isValueChar (c : Char) : Bool :=
  c = '\t' || ('\x20' ≤ c && c ≠ '\x7f')

def isGap (c : Char) : Bool :=
  c = ' ' || c = '\t'

def lineEnd? : List Char → Option (List Char)
  | '\r' :: '\n' :: rest => some rest
  | '\n' :: rest => some rest
  | _ => none

def run? (p : Char → Bool) (cs : List Char) : Option (List Char × List Char) :=
  match cs.takeWhile p with
  | [] => none
  | taken => some (taken, cs.dropWhile p)

def version? : List Char → Option (Nat × List Char)
  | 'H' :: 'T' :: 'T' :: 'P' :: '/' :: '1' :: '.' :: '0' :: rest => some (0, rest)
  | 'H' :: 'T' :: 'T' :: 'P' :: '/' :: '1' :: '.' :: '1' :: rest => some (1, rest)
  | _ => none

def field? (cs : List Char) : Option ((String × String) × List Char) := do
  let (name, rest) ← run? isTokenChar cs
  let rest ← match rest with
    | ':' :: rest => some rest
    | _ => none
  let value := rest.takeWhile isValueChar
  let rest ← lineEnd? (rest.dropWhile isValueChar)
  let trimmed := ((value.dropWhile isGap).reverse.dropWhile isGap).reverse
  return ((String.ofList name, String.ofList trimmed), rest)

def maxFields : Nat := 124

def fields? : (most : Nat) → List Char → Option (List (String × String) × List Char)
  | most, cs =>
    match lineEnd? cs with
    | some rest => some ([], rest)
    | none =>
      match most with
      | 0 => none
      | most + 1 => do
        let (field, rest) ← field? cs
        let (fields, rest) ← fields? most rest
        return (field :: fields, rest)

def skipLineEnds : List Char → List Char
  | '\r' :: '\n' :: rest => skipLineEnds rest
  | '\n' :: rest => skipLineEnds rest
  | cs => cs

def target? (bytes : List Char) : Option RequestTarget := do
  let text ← Text.Utf8.decode? (bytes.map fun c => UInt8.ofNat c.toNat)
  RequestTarget.parse? text.toList

def parse? (cs : List Char) : Option (RequestHead × List Char) := do
  let (method, rest) ← run? isTokenChar (skipLineEnds cs)
  let (target, rest) ← run? isTargetChar (← expect? [' '] rest)
  let target ← target? target
  let (minorVersion, rest) ← version? (← expect? [' '] rest)
  let (fields, rest) ← fields? maxFields (← lineEnd? rest)
  return (⟨String.ofList method, target, minorVersion, fields⟩, rest)

def lower (s : String) : String :=
  String.ofList (s.toList.map Char.toLower)

def get? (h : RequestHead) (name : String) : Option String :=
  (h.fields.find? fun f => lower f.1 = lower name).map (·.2)

def tokens (value : String) : List String :=
  if value.toList.all (· < '\x7f') then
    (value.toList.splitOnP fun c => c = ' ' || c = ',').map String.ofList
  else []

def isUpgrade (h : RequestHead) : Bool :=
  h.method = "GET" && 1 ≤ h.minorVersion &&
    ((h.get? "Connection").any fun v => (tokens v).any fun t => lower t = "upgrade") &&
    ((h.get? "Upgrade").any fun v => lower v = "websocket") &&
    h.get? "Sec-WebSocket-Version" = some "13" &&
    (h.get? "Sec-WebSocket-Key").isSome

end RequestHead

def switchingProtocols : String := "HTTP/1.1 101 Switching Protocols"

def upgradeRefused : TransportError :=
  .acceptFailed ⟨.other, "websocket handshake failed"⟩

def maxHead : Nat := 65536

def blockSize : Nat := 4096

def toBlockEnd (n : Nat) : Nat :=
  (blockSize - n % blockSize) % blockSize

/--
Answers a client that has sent `bytes` and then ended its side: they have to be one upgrade
request. What the client may send only after the answer must not have come with the request; this
is seen in the block in which the request ends, and not behind it.
-/
def accept (bytes : Bytes) : Except TransportError String :=
  match RequestHead.parse? (bytes.map fun b => Char.ofNat b.toNat) with
  | some (head, rest) =>
    let length := bytes.length - rest.length
    if head.isUpgrade && length ≤ maxHead && (rest.take (toBlockEnd length)).isEmpty then
      .ok switchingProtocols
    else .error upgradeRefused
  | none => .error upgradeRefused

structure Destination where
  host : String
  service : Nat

def defaultService : Nat := 80

def Destination.parse? (url : String) : Option Destination := do
  let rest ← expect? "ws://".toList url.toList
  let authority := rest.takeWhile fun c => c ≠ '/' && c ≠ '?' && c ≠ '#'
  let host := authority.takeWhile (· ≠ ':')
  if host.isEmpty then none
  match authority.dropWhile (· ≠ ':') with
  | [] => return ⟨String.ofList host, defaultService⟩
  | _ :: service => return ⟨String.ofList host, ← Text.ofUnsigned? 65536 service⟩

def Destination.toConnect (url : String) : Except TransportError Destination :=
  match Destination.parse? url with
  | some destination => .ok destination
  | none => .error (.connectFailed ⟨.other, "invalid WebSocket address"⟩)

end JsonRpc.WebSocket
