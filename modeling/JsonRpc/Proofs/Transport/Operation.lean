import JsonRpc.Proofs.Transport.Source
import JsonRpc.Transport.FrameReader

/-!
What a reader is asked for, one operation after another, and what each of them can do to it,
whatever the stream below does.
-/

namespace JsonRpc.FrameReader

inductive Operation where
  | next
  | read (size : Nat)
  | unread
  | readBody
  | readToEnd

inductive Reply where
  | next (answer : Except TransportError FrameHeader)
  | read (answer : Except IoFault Bytes)
  | unread (answer : Except TransportError Unit)
  | readBody (answer : Except TransportError Bytes)
  | readToEnd (answer : Except IoFault Unit × Bytes)

def perform (r : FrameReader) : Operation → Reply × FrameReader
  | .next => (.next r.nextMessage.1, r.nextMessage.2)
  | .read size => (.read (r.read size).1, (r.read size).2)
  | .unread => (.unread r.unreadByte.1, r.unreadByte.2)
  | .readBody => (.readBody r.readBody.1, r.readBody.2)
  | .readToEnd => (.readToEnd r.readToEnd.1, r.readToEnd.2)

def performAll (r : FrameReader) : List Operation → List Reply × FrameReader
  | [] => ([], r)
  | op :: ops => ((r.perform op).1 :: ((r.perform op).2.performAll ops).1,
      ((r.perform op).2.performAll ops).2)

theorem performAll_append (r : FrameReader) (ops more : List Operation)
    : (r.performAll (ops ++ more)).2 = ((r.performAll ops).2.performAll more).2 := by
  induction ops generalizing r with
  | nil => rfl
  | cons op ops ih => exact ih _

inductive Reads (r : FrameReader) (size : Nat) : Except IoFault Bytes × FrameReader → Prop
  | nothing (unasked : size = 0) : Reads r size (.ok [], r)
  | heldBack {b : UInt8} (asked : size ≠ 0) (held : r.pushback = some b)
      : Reads r size (.ok [b], { r with pushback := none, lastRead := some b })
  | atEnd (asked : size ≠ 0) (free : r.pushback = none) (spent : r.remaining = some 0)
      : Reads r size (.ok [], { r with lastRead := none })
  | fault {cause : IoFault} {rest : Source} (asked : size ≠ 0) (free : r.pushback = none)
      (inside : r.remaining ≠ some 0) (met : r.source.fill = .fault cause rest)
      : Reads r size (.error cause, { r with source := rest })
  | cutShort {left : Nat} (asked : size ≠ 0) (free : r.pushback = none)
      (inside : r.remaining = some left) (begun : left ≠ 0) (met : r.source.fill = .ended)
      : Reads r size
          (.error ⟨.unexpectedEof, bodyCutShort⟩, { r with source := [], lastRead := none })
  | ended (asked : size ≠ 0) (free : r.pushback = none) (unbounded : r.remaining = none)
      (met : r.source.fill = .ended)
      : Reads r size (.ok [], { r with source := [], lastRead := none })
  | taken {bytes more : Bytes} {rest : Source} (asked : size ≠ 0) (free : r.pushback = none)
      (inside : r.remaining ≠ some 0) (met : r.source.fill = .data (bytes ++ more) rest)
      (nonempty : bytes ≠ []) (fits : bytes.length ≤ size)
      (within : ∀ left, r.remaining = some left → bytes.length ≤ left)
      : Reads r size (.ok bytes, { r with
          source := .data more :: rest
          lastRead := bytes.getLast?
          remaining := r.remaining.map (· - bytes.length) })

def room (r : FrameReader) (size : Nat) : Nat :=
  match r.remaining with
  | some left => min left size
  | none => size

theorem room_pos {r : FrameReader} {size : Nat} (hsize : size ≠ 0) (hinside : r.remaining ≠ some 0)
    : 0 < r.room size := by
  unfold room
  split
  . next left hleft =>
    have : left ≠ 0 := by
      rintro rfl
      exact hinside hleft
    omega
  . omega

theorem room_le (r : FrameReader) (size : Nat)
    : r.room size ≤ size ∧ ∀ left, r.remaining = some left → r.room size ≤ left := by
  unfold room
  split
  . next left hleft =>
    refine ⟨Nat.min_le_right .., ?_⟩
    intro left' hleft'
    rw [hleft] at hleft'
    cases hleft'
    exact Nat.min_le_left ..
  . next hnone => simp [hnone]

theorem reads (r : FrameReader) (size : Nat) : Reads r size (r.read size) := by
  unfold read
  split
  . next hsize => exact .nothing hsize
  next hsize =>
  split
  . next b hheld => exact .heldBack hsize hheld
  next hfree =>
  split
  . next hspent => exact .atEnd hsize hfree hspent
  next hinside =>
  split
  . next hmet => exact .fault hsize hfree hinside hmet
  . next hmet =>
    dsimp only
    split
    . next hbounded =>
      obtain ⟨left, hleft⟩ := Option.isSome_iff_exists.1 hbounded
      refine .cutShort hsize hfree hleft ?_ hmet
      rintro rfl
      exact hinside hleft
    . next hunbounded =>
      exact .ended hsize hfree (by simpa using hunbounded) hmet
  . next bytes rest hmet =>
    have hne := Source.ne_nil_of_fill_data hmet
    have hroom := room_pos hsize hinside
    have hle := r.room_le size
    change Reads r size (.ok (bytes.take (r.room size)), { r with
      source := Source.behind (bytes.take (r.room size)).length bytes rest
      lastRead := (bytes.take (r.room size)).getLast?
      remaining := r.remaining.map (· - (bytes.take (r.room size)).length) })
    have hlength : (bytes.take (r.room size)).length ≤ r.room size := by
      rw [List.length_take]
      exact Nat.min_le_left ..
    rw [Source.behind, Source.drop_length_take]
    apply Reads.taken hsize hfree hinside
    . rw [List.take_append_drop]
      exact hmet
    . rw [← List.length_pos_iff, List.length_take]
      have := List.length_pos_iff.2 hne
      omega
    . omega
    . intro left hleft
      have := hle.2 left hleft
      omega

inductive Discards (r : FrameReader) : Except TransportError Unit × FrameReader → Prop
  | unbounded (unbounded : r.remaining = none) : Discards r (.ok (), r)
  | done {left : Nat} {rest : Source} (inside : r.remaining = some left)
      (met : r.source.skip left = .done rest)
      : Discards r (.ok (), { r with source := rest, remaining := some 0 })
  | fault {left : Nat} {cause : IoFault} {rest : Source} (inside : r.remaining = some left)
      (met : r.source.skip left = .fault cause rest)
      : Discards r (.error (.receiveFailed cause), { r with source := rest })
  | ended {left missing : Nat} (inside : r.remaining = some left)
      (met : r.source.skip left = .ended missing)
      : Discards r (.error (.unexpectedEof (Text.decimal missing ++ " body bytes missing")),
          { r with source := [], remaining := some missing })

theorem discards (r : FrameReader) : Discards r r.discardBody := by
  unfold discardBody
  split
  . next hnone => exact .unbounded hnone
  . next left hleft =>
    split
    . next hmet => exact .done hleft hmet
    . next hmet => exact .fault hleft hmet
    . next hmet => exact .ended hleft hmet

theorem nextMessage_of_discardBody_error {r r' : FrameReader} {cause : TransportError}
    (h : r.discardBody = (.error cause, r')) : r.nextMessage = (.error cause, r') := by
  unfold nextMessage
  rw [h]

theorem nextMessage_of_skip {r : FrameReader} {left : Nat} {rest : Source}
    (hleft : r.remaining = some left) (hskip : r.source.skip left = .done rest)
    : r.nextMessage = nextMessage { source := rest, maxMessageSize := r.maxMessageSize } := by
  have hdiscard : r.discardBody = (.ok (), { r with source := rest, remaining := some 0 }) := by
    unfold discardBody
    rw [hleft]
    dsimp only
    rw [hskip]
  have hfresh : discardBody { source := rest, maxMessageSize := r.maxMessageSize }
      = (.ok (), { source := rest, maxMessageSize := r.maxMessageSize }) := by
    simp [discardBody, Source.skip]
  unfold nextMessage
  rw [hdiscard, hfresh]

theorem maxMessageSize_of_discardBody {r r' : FrameReader} {answer : Except TransportError Unit}
    (h : r.discardBody = (answer, r')) : r'.maxMessageSize = r.maxMessageSize := by
  have hdiscards := r.discards
  rw [h] at hdiscards
  cases hdiscards <;> rfl

theorem of_nextMessage {r within : FrameReader} {header : FrameHeader}
    (h : r.nextMessage = (.ok header, within))
    : ∃ ready rest, r.discardBody = (.ok (), ready) ∧
        readHeaders ready.source = (.ok header.headers, rest) ∧
        header.headers.contentLength? = header.contentLength ∧
        (∀ n, header.contentLength = some n → n ≤ r.maxMessageSize) ∧
        within = {
          source := rest
          maxMessageSize := r.maxMessageSize
          remaining := header.contentLength } := by
  unfold nextMessage at h
  split at h
  . cases h
  . next ready hdiscard =>
    rw [← maxMessageSize_of_discardBody hdiscard]
    split at h
    . cases h
    . next headers rest hread =>
      dsimp only at h
      split at h
      . next hnone =>
        cases h
        exact ⟨ready, rest, hdiscard, hread, hnone, by simp, rfl⟩
      . next size hsome =>
        split at h
        . cases h
        . next hfits =>
          cases h
          refine ⟨ready, rest, hdiscard, hread, hsome, ?_, rfl⟩
          rintro n ⟨⟩
          exact Nat.le_of_not_lt hfits

theorem eq_of_nextMessage {r within : FrameReader} {header : FrameHeader}
    (h : r.nextMessage = (.ok header, within))
    : within = {
        source := within.source
        maxMessageSize := r.maxMessageSize
        remaining := header.contentLength } := by
  obtain ⟨-, rest, -, -, -, -, rfl⟩ := of_nextMessage h
  rfl

theorem eq_of_toOption {α : Type} {result : Except TransportError α × FrameReader} {a : α}
    (h : result.1.toOption = some a) : result = (.ok a, result.2) := by
  obtain ⟨answer, rest⟩ := result
  cases answer with
  | error cause => cases h
  | ok a' =>
    cases h
    rfl

theorem exists_head (r : FrameReader) (entries : List (String × String)) (length : Option Nat)
    (h : (r.nextMessage.1.toOption.map fun header =>
      (header.headers.entries, header.contentLength)) = some (entries, length))
    : ∃ header, r.nextMessage = (.ok header, r.nextMessage.2) ∧
        header.headers.entries = entries ∧ header.contentLength = length := by
  obtain ⟨header, hheader, hfields⟩ := Option.map_eq_some_iff.1 h
  obtain ⟨hentries, hlength⟩ := Prod.mk.inj hfields
  exact ⟨header, eq_of_toOption hheader, hentries, hlength⟩

end JsonRpc.FrameReader
