import JsonRpc.Transport.Fault

/-!
Byte streams as they are read: a list of chunks and of faults that one read meets. A read never
takes bytes from two chunks, a chunk without bytes is passed over, and after a fault the stream
goes on.
-/

namespace JsonRpc

inductive Segment where
  | data (bytes : Bytes)
  | fault (cause : IoFault)
  deriving DecidableEq

abbrev Source := List Segment

namespace Source

def ofBytes (bytes : Bytes) : Source :=
  [.data bytes]

def bytes (s : Source) : Bytes :=
  s.flatMap fun
    | .data bytes => bytes
    | .fault _ => []

def left (s : Source) : Nat :=
  s.bytes.length

inductive Fill where
  | data (bytes : Bytes) (rest : Source)
  | fault (cause : IoFault) (rest : Source)
  | ended

def fill : Source → Fill
  | [] => .ended
  | .data [] :: rest => fill rest
  | .data (b :: bytes) :: rest => .data (b :: bytes) rest
  | .fault cause :: rest => .fault cause rest

def behind (n : Nat) (bytes : Bytes) (rest : Source) : Source :=
  .data (bytes.drop n) :: rest

inductive Skip where
  | done (rest : Source)
  | fault (cause : IoFault) (rest : Source)
  | ended (missing : Nat)

def skip : (n : Nat) → Source → Skip
  | 0, s => .done s
  | n + 1, [] => .ended (n + 1)
  | _ + 1, .fault cause :: rest => .fault cause rest
  | n + 1, .data bytes :: rest =>
    if bytes.length ≤ n + 1 then
      skip (n + 1 - bytes.length) rest
    else
      .done (behind (n + 1) bytes rest)

inductive Line where
  | complete (line : Bytes) (rest : Source)
  | unfinished (line : Bytes)
  | fault (cause : IoFault) (rest : Source)

def lineFeed : UInt8 := 0x0A

/-- Reads up to the next line feed, after the bytes of `acc`. Bytes before a fault are lost. -/
def takeLine.go (acc : Bytes) : Source → Line
  | [] => .unfinished acc
  | .fault cause :: rest => .fault cause rest
  | .data bytes :: rest =>
    match bytes.dropWhile (· ≠ lineFeed) with
    | [] => go (acc ++ bytes) rest
    | b :: more => .complete (acc ++ bytes.takeWhile (· ≠ lineFeed) ++ [b]) (.data more :: rest)

def takeLine (s : Source) : Line :=
  takeLine.go [] s

@[simp]
theorem left_nil : left [] = 0 := rfl

@[simp]
theorem left_data (bytes : Bytes) (s : Source) :
    left (.data bytes :: s) = bytes.length + left s := by
  simp [left, Source.bytes]

@[simp]
theorem left_fault (cause : IoFault) (s : Source) : left (.fault cause :: s) = left s := by
  simp [left, Source.bytes]

theorem left_behind (n : Nat) (bytes : Bytes) (rest : Source) :
    (behind n bytes rest).left = bytes.length - n + rest.left := by
  simp [behind]

theorem takeLine.go_complete_left_lt {s : Source} {acc line : Bytes} {rest : Source}
    (h : takeLine.go acc s = .complete line rest) : rest.left < s.left := by
  induction s generalizing acc with
  | nil => simp [go] at h
  | cons segment s ih =>
    cases segment with
    | fault cause => simp [go] at h
    | data bytes =>
      rw [go] at h
      split at h
      . have := ih h
        simp only [left_data]
        omega
      . next b more hdrop =>
        simp only [Line.complete.injEq] at h
        obtain ⟨_, rfl⟩ := h
        have hlen := congrArg List.length
          (List.takeWhile_append_dropWhile (p := (· ≠ lineFeed)) (l := bytes))
        rw [hdrop] at hlen
        simp only [List.length_append, List.length_cons] at hlen
        simp only [left_data]
        omega

theorem takeLine_complete_left_lt {s : Source} {line : Bytes} {rest : Source}
    (h : s.takeLine = .complete line rest) : rest.left < s.left :=
  takeLine.go_complete_left_lt h

theorem left_of_fill_data {s : Source} {bytes : Bytes} {rest : Source}
    (h : s.fill = .data bytes rest) : s.left = bytes.length + rest.left := by
  induction s with
  | nil => simp [fill] at h
  | cons segment s ih =>
    cases segment with
    | fault cause => simp [fill] at h
    | data chunk =>
      cases chunk with
      | nil => simpa using ih (by simpa [fill] using h)
      | cons b chunk =>
        simp only [fill, Fill.data.injEq] at h
        obtain ⟨rfl, rfl⟩ := h
        simp

end Source

end JsonRpc
