import JsonRpc.Proofs.Transport.Reading

/-!
How a stream without faults is cut into chunks makes no difference to what is read from it, as long
as no single read is asked for.
-/

namespace JsonRpc

namespace Source

structure Alike (s t : Source) : Prop where
  left : s.Faultless
  right : t.Faultless
  bytes : s.bytes = t.bytes

namespace Alike

theorem nil : Alike [] [] :=
  ⟨by simp [Faultless], by simp [Faultless], rfl⟩

variable {s t : Source}

theorem left_eq (h : s.Alike t) : s.left = t.left := by
  unfold Source.left
  rw [h.bytes]

theorem upTo_eq (h : s.Alike t) (limit : Option Nat) : s.upTo limit = t.upTo limit := by
  cases limit <;> simp only [upTo, h.bytes]

theorem takeLine_cases (h : s.Alike t)
    : (∃ line, s.takeLine = .unfinished line ∧ t.takeLine = .unfinished line) ∨
        ∃ line s' t', s.takeLine = .complete line s' ∧ t.takeLine = .complete line t' ∧
          s'.Alike t' := by
  have hs := takeLine.go_eq h.left []
  have ht := takeLine.go_eq h.right []
  rw [h.bytes] at hs
  split at hs
  . next hdrop =>
    rw [hdrop] at ht
    exact .inl ⟨_, hs, ht⟩
  . next b more hdrop =>
    rw [hdrop] at ht
    obtain ⟨s', hs', hsbytes, hsline⟩ := hs
    obtain ⟨t', ht', htbytes, htline⟩ := ht
    exact .inr ⟨_, s', t', hsline, htline, hs', ht', hsbytes.trans htbytes.symm⟩

theorem skip_cases (h : s.Alike t) (n : Nat)
    : (∃ s' t', s.skip n = .done s' ∧ t.skip n = .done t' ∧ s'.Alike t') ∨
        ∃ missing, s.skip n = .ended missing ∧ t.skip n = .ended missing := by
  have hleft := h.left_eq
  rcases h.left.skip_cases n with ⟨hs, s', hs', hsbytes, hsskip⟩ | ⟨hs, hsskip⟩
  . rcases h.right.skip_cases n with ⟨-, t', ht', htbytes, htskip⟩ | ⟨ht, -⟩
    . rw [h.bytes, ← htbytes] at hsbytes
      exact .inl ⟨s', t', hsskip, htskip, hs', ht', hsbytes⟩
    . omega
  . rcases h.right.skip_cases n with ⟨ht, -⟩ | ⟨-, htskip⟩
    . omega
    . rw [← hleft] at htskip
      exact .inr ⟨_, hsskip, htskip⟩

end Alike

end Source

namespace FrameReader

structure Alike (r r' : FrameReader) : Prop where
  source : r.source.Alike r'.source
  max : r.maxMessageSize = r'.maxMessageSize
  remaining : r.remaining = r'.remaining
  pushback : r.pushback = r'.pushback
  lastRead : r.lastRead = r'.lastRead

structure Agree {α : Type} (result result' : α × FrameReader) : Prop where
  answer : result.1 = result'.1
  alike : result.2.Alike result'.2

theorem readHeaders.go_alike {s t : Source} (h : s.Alike t) (first : Bool) (headers : Headers)
    : (go s first headers).1 = (go t first headers).1 ∧
        (go s first headers).2.Alike (go t first headers).2 := by
  induction hleft : s.left using Nat.strongRecOn generalizing s t first headers with
  | ind left ih =>
    rw [go_eq s, go_eq t]
    rcases h.takeLine_cases with ⟨line, hs, ht⟩ | ⟨line, s', t', hs, ht, hrest⟩
    . rw [hs, ht]
      exact ⟨rfl, .nil⟩
    . rw [hs, ht]
      dsimp only
      have hshorter := Source.takeLine_complete_left_lt hs
      cases HeaderLine.ofBytes line with
      | blank => exact ⟨rfl, hrest⟩
      | malformed shown => exact ⟨rfl, hrest⟩
      | header key value => exact ih s'.left (by omega) hrest false (headers.insert key value) rfl

namespace Alike

variable {r r' : FrameReader}

theorem behindBody (h : r.Alike r') {rest rest' : Source} (hrest : rest.Alike rest')
    : (r.behindBody rest).Alike (r'.behindBody rest') := by
  refine ⟨hrest, h.max, ?_, rfl, rfl⟩
  simp only [FrameReader.behindBody, h.remaining, h.source.left_eq]

theorem rest (h : r.Alike r') {rest rest' : Source} (hrest : rest.Faultless)
    (hrest' : rest'.Faultless) (hsplit : r.source.bytes = r.source.upTo r.remaining ++ rest.bytes)
    (hsplit' : r'.source.bytes = r'.source.upTo r'.remaining ++ rest'.bytes)
    : rest.Alike rest' := by
  refine ⟨hrest, hrest', ?_⟩
  rw [h.source.bytes, h.remaining, h.source.upTo_eq, hsplit'] at hsplit
  exact (List.append_cancel_left hsplit).symm

theorem isShort_eq (h : r.Alike r') : r.isShort = r'.isShort := by
  simp only [isShort, h.remaining, h.source.left_eq]

theorem ahead_eq (h : r.Alike r') : r.ahead = r'.ahead := by
  simp only [ahead, h.pushback, h.remaining, h.source.upTo_eq]

theorem readToEnd (h : r.Alike r') : Agree r.readToEnd r'.readToEnd := by
  obtain ⟨rest, hrest, hsplit, hread⟩ := readToEnd_eq h.source.left
  obtain ⟨rest', hrest', hsplit', hread'⟩ := readToEnd_eq h.source.right
  rw [hread, hread']
  refine ⟨?_, h.behindBody (h.rest hrest hrest' hsplit hsplit')⟩
  simp only [ending, h.isShort_eq, h.ahead_eq]

theorem readBody (h : r.Alike r') : Agree r.readBody r'.readBody := by
  cases hremaining : r.remaining with
  | none =>
    have hremaining' : r'.remaining = none := by rw [← h.remaining, hremaining]
    unfold FrameReader.readBody
    rw [hremaining, hremaining']
    exact ⟨rfl, h⟩
  | some left =>
    have hremaining' : r'.remaining = some left := by rw [← h.remaining, hremaining]
    obtain ⟨rest, hrest, hsplit, hread⟩ := readBody_eq h.source.left hremaining
    obtain ⟨rest', hrest', hsplit', hread'⟩ := readBody_eq h.source.right hremaining'
    rw [hread, hread']
    refine ⟨?_, h.behindBody (h.rest hrest hrest' hsplit hsplit')⟩
    simp only [h.isShort_eq, h.ahead_eq]

theorem unreadByte (h : r.Alike r') : Agree r.unreadByte r'.unreadByte := by
  unfold FrameReader.unreadByte
  rw [h.lastRead]
  split
  . exact ⟨rfl, h.source, h.max, h.remaining, rfl, rfl⟩
  . exact ⟨rfl, h⟩

theorem discardBody (h : r.Alike r') : Agree r.discardBody r'.discardBody := by
  unfold FrameReader.discardBody
  rw [← h.remaining]
  split
  . exact ⟨rfl, h⟩
  . next left hleft =>
    rcases h.source.skip_cases left with ⟨s', t', hs, ht, hrest⟩ | ⟨missing, hs, ht⟩
    . rw [hs, ht]
      exact ⟨rfl, hrest, h.max, rfl, h.pushback, h.lastRead⟩
    . rw [hs, ht]
      exact ⟨rfl, .nil, h.max, rfl, h.pushback, h.lastRead⟩

theorem nextMessage (h : r.Alike r') : Agree r.nextMessage r'.nextMessage := by
  unfold FrameReader.nextMessage
  have hdiscard := h.discardBody
  generalize r.discardBody = result at hdiscard
  generalize r'.discardBody = result' at hdiscard
  obtain ⟨answer, ready⟩ := result
  obtain ⟨answer', ready'⟩ := result'
  obtain ⟨rfl, hready⟩ := hdiscard
  cases answer with
  | error cause => exact ⟨rfl, hready⟩
  | ok _ =>
    dsimp only
    have hblock : (readHeaders ready.source).1 = (readHeaders ready'.source).1 ∧
        (readHeaders ready.source).2.Alike (readHeaders ready'.source).2 :=
      readHeaders.go_alike hready.source true .empty
    generalize readHeaders ready.source = block at hblock
    generalize readHeaders ready'.source = block' at hblock
    obtain ⟨headers, rest⟩ := block
    obtain ⟨headers', rest'⟩ := block'
    obtain ⟨rfl, hrest⟩ := hblock
    cases headers with
    | error cause => exact ⟨rfl, hrest, hready.max, hready.remaining, rfl, rfl⟩
    | ok headers =>
      dsimp only
      rw [hready.max]
      split
      . exact ⟨rfl, hrest, rfl, rfl, rfl, rfl⟩
      . split
        . exact ⟨rfl, hrest, rfl, rfl, rfl, rfl⟩
        . exact ⟨rfl, hrest, rfl, rfl, rfl, rfl⟩

theorem perform (h : r.Alike r') {op : Operation} (hop : ∀ size, op ≠ .read size)
    : Agree (r.perform op) (r'.perform op) := by
  cases op with
  | next => exact ⟨congrArg Reply.next h.nextMessage.answer, h.nextMessage.alike⟩
  | read size => exact absurd rfl (hop size)
  | unread => exact ⟨congrArg Reply.unread h.unreadByte.answer, h.unreadByte.alike⟩
  | readBody => exact ⟨congrArg Reply.readBody h.readBody.answer, h.readBody.alike⟩
  | readToEnd => exact ⟨congrArg Reply.readToEnd h.readToEnd.answer, h.readToEnd.alike⟩

theorem performAll (h : r.Alike r') {ops : List Operation} (hops : ∀ size, .read size ∉ ops)
    : Agree (r.performAll ops) (r'.performAll ops) := by
  induction ops generalizing r r' with
  | nil => exact ⟨rfl, h⟩
  | cons op ops ih =>
    have hop : ∀ size, op ≠ .read size := by
      rintro size rfl
      exact hops size List.mem_cons_self
    have hfirst := h.perform hop
    have hrest := ih hfirst.alike fun size hmem => hops size (List.mem_cons_of_mem op hmem)
    refine ⟨?_, hrest.alike⟩
    simp only [FrameReader.performAll, hfirst.answer, hrest.answer]

end Alike

def ofChunks (chunks : List Bytes) (max : Nat) : FrameReader :=
  { source := chunks.map .data, maxMessageSize := max }

theorem alike_ofChunks {chunks chunks' : List Bytes} (h : chunks.flatten = chunks'.flatten)
    (max : Nat) : (ofChunks chunks max).Alike (ofChunks chunks' max) := by
  refine ⟨⟨.ofChunks chunks, .ofChunks chunks', ?_⟩, rfl, rfl, rfl, rfl⟩
  change Source.bytes (chunks.map .data) = Source.bytes (chunks'.map .data)
  rw [Source.bytes_ofChunks, Source.bytes_ofChunks, h]

/--
Two readers of the same bytes, each in chunks of its own, are asked for frames, for bodies and for
all that is left of bodies, in any order. They give the same answers: the same headers, the same
bodies, the same errors with the same texts. Behind each operation they have left the same bytes.
-/
theorem performAll_of_flatten {chunks chunks' : List Bytes}
    (hbytes : chunks.flatten = chunks'.flatten) (max : Nat) {ops : List Operation}
    (hops : ∀ size, .read size ∉ ops)
    : ((ofChunks chunks max).performAll ops).1 = ((ofChunks chunks' max).performAll ops).1 ∧
        ∀ done, done <+: ops →
          ((ofChunks chunks max).performAll done).2.source.bytes
            = ((ofChunks chunks' max).performAll done).2.source.bytes := by
  have halike := alike_ofChunks hbytes max
  refine ⟨(halike.performAll hops).answer, ?_⟩
  intro done hdone
  exact (halike.performAll fun size hmem => hops size (hdone.subset hmem)).alike.source.bytes

def onePiece : List Bytes :=
  [Text.Utf8.encode "Content-Length: 3\x0d\x0aTrace: é\x0d\x0a\x0d\x0aabcTrace: ü\x0a\x0d\x0aopen"]

def manyPieces : List Bytes :=
  let bytes := onePiece.flatten
  [bytes.take 18, (bytes.drop 18).take 9, (bytes.drop 27).take 6, (bytes.drop 33).take 9,
    bytes.drop 42]

theorem performAll_of_manyPieces
    : ((ofChunks onePiece 3).performAll [.next, .readBody, .next, .readToEnd, .next]).1
        = ((ofChunks manyPieces 3).performAll [.next, .readBody, .next, .readToEnd, .next]).1 ∧
      ((ofChunks onePiece 3).performAll [.next, .readBody, .next]).2.source.bytes
        = ((ofChunks manyPieces 3).performAll [.next, .readBody, .next]).2.source.bytes := by
  have hbytes : onePiece.flatten = manyPieces.flatten := by decide +kernel
  have hops : ∀ size, Operation.read size ∉ [.next, .readBody, .next, .readToEnd, .next] := by simp
  obtain ⟨hreplies, hleft⟩ := performAll_of_flatten hbytes 3 hops
  exact ⟨hreplies, hleft [.next, .readBody, .next] ⟨[.readToEnd, .next], rfl⟩⟩

end FrameReader

end JsonRpc
