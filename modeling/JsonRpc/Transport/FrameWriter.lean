import JsonRpc.Transport.Headers
import JsonRpc.Transport.Sink

/-!
Writing frames. After a failed write the writer accepts nothing more, so that a later frame can
never land in the middle of one that was cut off.
-/

namespace JsonRpc

structure FrameWriter where
  sink : Sink := {}
  poisoned : Bool := false

namespace FrameWriter

def breaksLine (c : Char) : Bool :=
  c = '\r' || c = '\n'

def isWritable (key value : String) : Bool :=
  !key.isEmpty && !key.toList.any (fun c => c = ':' || breaksLine c) &&
    !value.toList.any breaksLine

def invalidKey? (headers : Headers) : Option String :=
  (headers.entries.find? fun e => !isWritable e.1 e.2).map (·.1)

def lineEnd : String := "\x0d\x0a"

def head (headers : Headers) : Bytes :=
  headers.entries.flatMap (fun e => Text.Utf8.encode (e.1 ++ ": " ++ e.2 ++ lineEnd)) ++
    Text.Utf8.encode lineEnd

def headStuck : String := "write zero"

def writeFrame (s : Sink) (headers : Headers) (body : Source) :
    Except TransportError Unit × Sink :=
  match s.writeAll headStuck (head headers) with
  | (.error cause, s) => (.error (.sendFailed cause), s)
  | (.ok (), s) =>
    let expected? := headers.contentLength?
    match s.copy body expected? with
    | (.error cause, s) => (.error (.sendFailed cause), s)
    | (.ok written, s) =>
      let expected := expected?.getD written
      if written < expected then
        (.error (.shortWrite expected written), s)
      else match s.flush with
        | (.error cause, s) => (.error (.sendFailed cause), s)
        | (.ok (), s) => (.ok (), s)

def writeMessage (w : FrameWriter) (headers : Headers) (body : Source) :
    Except TransportError Unit × FrameWriter :=
  if w.poisoned then
    (.error .writerPoisoned, w)
  else match invalidKey? headers with
    | some key => (.error (.invalidHeader key), w)
    | none =>
      match writeFrame w.sink headers body with
      | (.ok (), sink) => (.ok (), { w with sink })
      | (.error e, sink) => (.error e, { sink, poisoned := true })

def send (w : FrameWriter) (body : Bytes) : Except TransportError Unit × FrameWriter :=
  w.writeMessage (Headers.empty.setContentLength body.length) (.ofBytes body)

def shutdown (w : FrameWriter) : Except TransportError Unit × FrameWriter :=
  match w.sink.close with
  | (.ok (), sink) => (.ok (), { w with sink })
  | (.error cause, sink) => (.error (.sendFailed cause), { w with sink })

end FrameWriter

end JsonRpc
