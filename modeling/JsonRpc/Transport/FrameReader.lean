import JsonRpc.Transport.Headers
import JsonRpc.Transport.Source

/-!
Reading frames: a header block of lines, a blank line, and a body of the declared length. Between
two headers the reader is a cursor over one body that never leaves it, and that may step back by
the byte it has just read.
-/

namespace JsonRpc

def defaultMaxMessageSize : Nat := 100 * 1024 * 1024

structure FrameHeader where
  headers : Headers
  /-- Without a declared length the caller frames the body. -/
  contentLength : Option Nat

structure FrameReader where
  source : Source
  maxMessageSize : Nat := defaultMaxMessageSize
  /-- Bytes of the body still in the stream; nothing while the body has no declared length. -/
  remaining : Option Nat := some 0
  pushback : Option UInt8 := none
  /-- The byte that the last read ended with. -/
  lastRead : Option UInt8 := none

namespace FrameReader

def bodyCutShort : String := "stream ended before the declared body length"

/--
Passes over the rest of a body of declared length. At a fault the record of what remains stays as
it was before; at the end of the stream it says what is missing.
-/
def discardBody (r : FrameReader) : Except TransportError Unit × FrameReader :=
  match r.remaining with
  | none => (.ok (), r)
  | some left =>
    match r.source.skip left with
    | .done rest => (.ok (), { r with source := rest, remaining := some 0 })
    | .fault cause rest => (.error (.receiveFailed cause), { r with source := rest })
    | .ended missing =>
      (.error (.unexpectedEof (Text.decimal missing ++ " body bytes missing")),
        { r with source := [], remaining := some missing })

inductive HeaderLine where
  | blank
  | header (key value : String)
  | malformed (shown : String)

def isLineEnd (c : Char) : Bool :=
  c = '\r' || c = '\n'

def HeaderLine.ofBytes (line : Bytes) : HeaderLine :=
  match Text.Utf8.decode? line with
  | none => .malformed (Text.Utf8.decodeLossy line)
  | some text =>
    let cs := Text.dropEnd isLineEnd text.toList
    if cs.isEmpty then
      .blank
    else match cs.dropWhile (· ≠ ':') with
      | [] => .malformed (String.ofList cs)
      | _ :: value =>
        let key := Text.trimBlank (cs.takeWhile (· ≠ ':'))
        if key.isEmpty then
          .malformed (String.ofList cs)
        else
          .header (String.ofList key) (String.ofList (Text.trimBlank value))

def readHeaders.go (s : Source) (first : Bool) (headers : Headers) :
    Except TransportError Headers × Source :=
  match h : s.takeLine with
  | .fault cause rest => (.error (.receiveFailed cause), rest)
  | .unfinished [] =>
    if first then
      (.error (.connectionClosed "end of stream"), [])
    else
      (.error (.unexpectedEof "stream ended inside a header block"), [])
  | .unfinished (_ :: _) =>
    (.error (.unexpectedEof "stream ended inside a header line"), [])
  | .complete line rest =>
    have : rest.left < s.left := Source.takeLine_complete_left_lt h
    match HeaderLine.ofBytes line with
    | .blank => (.ok headers, rest)
    | .malformed shown => (.error (.malformedHeader shown), rest)
    | .header key value => go rest false (headers.insert key value)
termination_by s.left

def readHeaders (s : Source) : Except TransportError Headers × Source :=
  readHeaders.go s true .empty

/--
Advances to the next frame. What is unread of a body of declared length is passed over; a body
without one was framed by the caller, and nothing of it is.
-/
def nextMessage (r : FrameReader) : Except TransportError FrameHeader × FrameReader :=
  match r.discardBody with
  | (.error e, r) => (.error e, r)
  | (.ok (), r) =>
    match readHeaders r.source with
    | (.error e, rest) =>
      (.error e, { r with source := rest, pushback := none, lastRead := none })
    | (.ok headers, rest) =>
      let r := { r with source := rest, pushback := none, lastRead := none }
      match headers.contentLength? with
      | none => (.ok ⟨headers, none⟩, { r with remaining := none })
      | some size =>
        if r.maxMessageSize < size then
          (.error (.messageTooLarge size r.maxMessageSize), { r with remaining := some 0 })
        else
          (.ok ⟨headers, some size⟩, { r with remaining := some size })

/--
One read of at most `n` bytes of the body: the byte pushed back alone, or bytes of one chunk.
Nothing is read at the end of the body or, without a declared length, of the stream.
-/
def read (r : FrameReader) (n : Nat) : Except IoFault Bytes × FrameReader :=
  if n = 0 then
    (.ok [], r)
  else match r.pushback with
    | some b => (.ok [b], { r with pushback := none, lastRead := some b })
    | none =>
      if r.remaining = some 0 then
        (.ok [], { r with lastRead := none })
      else match r.source.fill with
        | .fault cause rest => (.error cause, { r with source := rest })
        | .ended =>
          let r := { r with source := [], lastRead := none }
          if r.remaining.isSome then
            (.error ⟨.unexpectedEof, bodyCutShort⟩, r)
          else
            (.ok [], r)
        | .data bytes rest =>
          let taken := bytes.take (match r.remaining with
            | some left => min left n
            | none => n)
          (.ok taken, { r with
            source := Source.behind taken.length bytes rest
            lastRead := taken.getLast?
            remaining := r.remaining.map (· - taken.length) })

def weight (r : FrameReader) : Nat :=
  r.source.left + (if r.pushback.isSome then 1 else 0)

theorem weight_read_lt {r r' : FrameReader} {n : Nat} {taken : Bytes}
    (h : r.read n = (.ok taken, r')) (hne : taken ≠ []) : r'.weight < r.weight := by
  unfold read at h
  split at h
  . simp_all
  . split at h
    . next b hb =>
      obtain ⟨-, rfl⟩ := Prod.mk.inj h
      simp [weight, hb]
    . next hnone =>
      split at h
      . simp_all
      . split at h
        . simp at h
        . dsimp only at h
          split at h <;> simp_all
        . next bytes rest hfill =>
          have hleft := Source.left_of_fill_data hfill
          dsimp only at h
          generalize (match r.remaining with | some left => min left n | none => n) = count at h
          obtain ⟨htaken, rfl⟩ := Prod.mk.inj h
          have htaken := Except.ok.inj htaken
          have hpos : 0 < taken.length := List.length_pos_iff.2 hne
          have hle : taken.length ≤ bytes.length := by
            rw [← htaken, List.length_take]
            exact Nat.min_le_right ..
          rw [htaken]
          simp only [weight, hnone, Source.left_behind]
          omega

def bufferSize : Nat := 8192

def readToEnd.go (acc : Bytes) (r : FrameReader) : (Except IoFault Unit × Bytes) × FrameReader :=
  match h : r.read bufferSize with
  | (.error cause, r') => ((.error cause, acc), r')
  | (.ok [], r') => ((.ok (), acc), r')
  | (.ok (b :: taken), r') =>
    have : r'.weight < r.weight := weight_read_lt h (by simp)
    go (acc ++ b :: taken) r'
termination_by r.weight

def readToEnd (r : FrameReader) : (Except IoFault Unit × Bytes) × FrameReader :=
  readToEnd.go [] r

def readBody (r : FrameReader) : Except TransportError Bytes × FrameReader :=
  if r.remaining.isNone then
    (.error .missingContentLength, r)
  else match r.readToEnd with
    | ((.ok (), body), r) => (.ok body, r)
    | ((.error ⟨.unexpectedEof, reason⟩, _), r) => (.error (.unexpectedEof reason), r)
    | ((.error cause, _), r) => (.error (.receiveFailed cause), r)

def unreadByte (r : FrameReader) : Except TransportError Unit × FrameReader :=
  match r.lastRead with
  | some b => (.ok (), { r with pushback := some b, lastRead := none })
  | none => (.error .invalidUnread, r)

end FrameReader

end JsonRpc
