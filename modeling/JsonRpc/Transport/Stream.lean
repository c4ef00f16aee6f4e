import JsonRpc.Transport.FrameReader
import JsonRpc.Transport.FrameWriter

/-!
Messages over byte streams: each message is the body of one frame with a declared length.
-/

namespace JsonRpc.Stream

def readMessage (r : FrameReader) : Except TransportError Bytes × FrameReader :=
  match r.nextMessage with
  | (.error e, r) => (.error e, r)
  | (.ok header, r) =>
    if header.contentLength.isNone then (.error .missingContentLength, r) else r.readBody

def writeMessage (w : FrameWriter) (message : Bytes) : Except TransportError Unit × FrameWriter :=
  w.send message

def close (w : FrameWriter) : Except TransportError Unit × FrameWriter :=
  w.shutdown

def frame (message : Bytes) : Bytes :=
  FrameWriter.head (Headers.empty.setContentLength message.length) ++ message

/-- Fails only because the stream has ended, so that more bytes may still change the answer. -/
def isStarved : Except TransportError Bytes → Bool
  | .error (.connectionClosed _) | .error (.unexpectedEof _) => true
  | _ => false

/--
Reads the next message of a stream that may still grow, with no faults in it: nothing as long as
its end could change the answer.
-/
def readArrived? (r : FrameReader) (atEnd : Bool) :
    Option (Except TransportError Bytes × FrameReader) :=
  let answer := readMessage r
  if isStarved answer.1 && !atEnd then none else some answer

end JsonRpc.Stream
