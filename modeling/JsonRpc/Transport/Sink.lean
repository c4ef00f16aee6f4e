import JsonRpc.Transport.Source

/-!
Byte streams as they are written: how the stream below answers, and what it has accepted.
-/

namespace JsonRpc

structure Sink.Policy where
  /--
  The number of bytes accepted of `offered` ones in call number `call`, after `size` bytes in
  all. More than `offered` counts as all of them.
  -/
  write : (size call offered : Nat) → Except IoFault Nat := fun _ _ offered => .ok offered
  flush : (call : Nat) → Except IoFault Unit := fun _ => .ok ()
  close : (call : Nat) → Except IoFault Unit := fun _ => .ok ()

structure Sink where
  policy : Sink.Policy := {}
  /-- The bytes accepted, in pieces, the latest first. -/
  pieces : List Bytes := []
  size : Nat := 0
  writes : Nat := 0
  flushes : Nat := 0
  closes : Nat := 0

namespace Sink

def accepted (s : Sink) : Bytes :=
  s.pieces.reverse.flatten

def write (s : Sink) (bytes : Bytes) : Except IoFault Nat × Sink :=
  let s := { s with writes := s.writes + 1 }
  match s.policy.write s.size (s.writes - 1) bytes.length with
  | .error cause => (.error cause, s)
  | .ok n =>
    let taken := bytes.take n
    (.ok taken.length, { s with pieces := taken :: s.pieces, size := s.size + taken.length })

def writeAll (stuck : String) (s : Sink) (bytes : Bytes) : Except IoFault Unit × Sink :=
  match bytes with
  | [] => (.ok (), s)
  | b :: rest =>
    match s.write (b :: rest) with
    | (.error cause, s) => (.error cause, s)
    | (.ok 0, s) => (.error ⟨.other, stuck⟩, s)
    | (.ok (n + 1), s) => writeAll stuck s (rest.drop n)
termination_by bytes.length

def flush (s : Sink) : Except IoFault Unit × Sink :=
  (s.policy.flush s.flushes, { s with flushes := s.flushes + 1 })

def close (s : Sink) : Except IoFault Unit × Sink :=
  (s.policy.close s.closes, { s with closes := s.closes + 1 })

def copyBuffer : Nat := 8192

def copyStuck : String := "write zero byte into writer"

def copyStep : (limit : Option Nat) → Nat
  | some left => min left copyBuffer
  | none => copyBuffer

def finishCopy (s : Sink) (count : Nat) : Except IoFault Nat × Sink :=
  match s.flush with
  | (.error cause, s) => (.error cause, s)
  | (.ok (), s) => (.ok count, s)

def copy.go (source : Source) (limit : Option Nat) (count : Nat) (s : Sink) :
    Except IoFault Nat × Sink :=
  if limit = some 0 then
    s.finishCopy count
  else match h : source.fill with
    | .ended => s.finishCopy count
    | .fault cause _ => (.error cause, s)
    | .data bytes rest =>
      let taken := bytes.take (copyStep limit)
      match ht : taken.length with
      | 0 => s.finishCopy count
      | n + 1 =>
        match s.writeAll copyStuck taken with
        | (.error cause, s) => (.error cause, s)
        | (.ok (), s) =>
          have : (Source.behind (n + 1) bytes rest).left < source.left := by
            have hle : taken.length ≤ bytes.length := by
              rw [List.length_take]
              exact Nat.min_le_right ..
            rw [Source.left_of_fill_data h, Source.left_behind]
            omega
          go (Source.behind (n + 1) bytes rest) (limit.map (· - (n + 1))) (count + (n + 1)) s
termination_by source.left

/--
Copies `source`, or its first `limit` bytes, and tells how many bytes that were. Each read is
written before the next one, nothing is read behind the limit, and the end flushes.
-/
def copy (source : Source) (limit : Option Nat) (s : Sink) : Except IoFault Nat × Sink :=
  copy.go source limit 0 s

end Sink

end JsonRpc
