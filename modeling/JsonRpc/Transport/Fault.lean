import JsonRpc.Text.Numeral
import JsonRpc.Text.Quoted
import JsonRpc.Text.Utf8

/-!
What goes wrong on a connection. Every fault ends the connection that it arises on.
-/

namespace JsonRpc

inductive IoKind where
  | other
  | unexpectedEof
  | connectionReset
  | brokenPipe
  deriving DecidableEq

structure IoFault where
  kind : IoKind
  message : String
  deriving DecidableEq

inductive TransportError where
  | connectionClosed (reason : String)
  | connectFailed (cause : IoFault)
  | acceptFailed (cause : IoFault)
  | sendFailed (cause : IoFault)
  | receiveFailed (cause : IoFault)
  | unexpectedEof (reason : String)
  | malformedHeader (line : String)
  | invalidHeader (key : String)
  | missingContentLength
  | messageTooLarge (size max : Nat)
  | shortWrite (expected written : Nat)
  | writerPoisoned
  | invalidUnread
  deriving DecidableEq

namespace TransportError

def message : TransportError → String
  | .connectionClosed reason => "connection closed: " ++ reason
  | .connectFailed cause => "connect failed: " ++ cause.message
  | .acceptFailed cause => "accept failed: " ++ cause.message
  | .sendFailed cause => "send failed: " ++ cause.message
  | .receiveFailed cause => "receive failed: " ++ cause.message
  | .unexpectedEof reason => "unexpected end of stream: " ++ reason
  | .malformedHeader line => "malformed header line: " ++ Text.quoted line
  | .invalidHeader key =>
    "invalid header " ++ Text.quoted key ++ ": keys and values must not contain line breaks"
  | .missingContentLength => "missing or invalid Content-Length header"
  | .messageTooLarge size max =>
    "message size " ++ Text.decimal size ++ " exceeds maximum " ++ Text.decimal max ++ " bytes"
  | .shortWrite expected written =>
    "short write: declared " ++ Text.decimal expected ++ " body bytes, wrote " ++
      Text.decimal written
  | .writerPoisoned => "writer failed earlier and accepts no more messages"
  | .invalidUnread => "unread_byte is only valid immediately after a body read"

def isClosed : TransportError → Bool
  | .connectionClosed _ => true
  | _ => false

def cause? : TransportError → Option IoFault
  | .connectFailed cause | .acceptFailed cause | .sendFailed cause | .receiveFailed cause =>
    some cause
  | _ => none

end TransportError

end JsonRpc
