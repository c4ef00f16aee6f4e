import JsonRpc.Proofs.Transport.Reading

/-!
A reader inside a body of declared length as a cursor over the bytes of the body. Main statement:
whatever is asked of it, it answers as the cursor does, and it never leaves the body.
-/

namespace JsonRpc

namespace FrameReader

/--
A place in a body: the bytes before it and those after it. It is fresh while the byte in front of
it has just been read and may be given back.
-/
structure Cursor where
  before : Bytes
  after : Bytes
  fresh : Bool

namespace Cursor

inductive Step : Cursor → Operation → Reply → Cursor → Prop
  | read {before bytes after : Bytes} {fresh : Bool} {size : Nat} (nonempty : bytes ≠ [])
      (fits : bytes.length ≤ size)
      : Step ⟨before, bytes ++ after, fresh⟩ (.read size) (.read (.ok bytes))
          ⟨before ++ bytes, after, true⟩
  | atEnd {before : Bytes} {fresh : Bool} {size : Nat} (asked : size ≠ 0)
      : Step ⟨before, [], fresh⟩ (.read size) (.read (.ok [])) ⟨before, [], false⟩
  | nothing {cursor : Cursor} : Step cursor (.read 0) (.read (.ok [])) cursor
  | unread {before after : Bytes} {b : UInt8}
      : Step ⟨before ++ [b], after, true⟩ .unread (.unread (.ok ())) ⟨before, b :: after, false⟩
  | refused {before after : Bytes}
      : Step ⟨before, after, false⟩ .unread (.unread (.error .invalidUnread)) ⟨before, after, false⟩
  | readBody {before after : Bytes} {fresh : Bool}
      : Step ⟨before, after, fresh⟩ .readBody (.readBody (.ok after)) ⟨before ++ after, [], false⟩
  | readToEnd {before after : Bytes} {fresh : Bool}
      : Step ⟨before, after, fresh⟩ .readToEnd (.readToEnd (.ok (), after))
          ⟨before ++ after, [], false⟩

theorem Step.whole {cursor next : Cursor} {op : Operation} {reply : Reply}
    (h : cursor.Step op reply next) : next.before ++ next.after = cursor.before ++ cursor.after := by
  cases h <;> simp

inductive Runs : Cursor → List Operation → List Reply → Cursor → Prop
  | nil {cursor : Cursor} : Runs cursor [] [] cursor
  | cons {cursor next last : Cursor} {op : Operation} {reply : Reply} {ops : List Operation}
      {replies : List Reply} (step : cursor.Step op reply next) (rest : Runs next ops replies last)
      : Runs cursor (op :: ops) (reply :: replies) last

theorem Runs.whole {cursor last : Cursor} {ops : List Operation} {replies : List Reply}
    (h : cursor.Runs ops replies last)
    : last.before ++ last.after = cursor.before ++ cursor.after := by
  induction h with
  | nil => rfl
  | cons step rest ih => exact ih.trans step.whole

end Cursor

theorem unreadByte_kept (r : FrameReader)
    : r.unreadByte.2.source = r.source ∧ r.unreadByte.2.remaining = r.remaining ∧
        r.unreadByte.2.maxMessageSize = r.maxMessageSize := by
  unfold unreadByte
  split <;> exact ⟨rfl, rfl, rfl⟩

theorem exists_unread {r : FrameReader} {cursor : Cursor} {inside : Bytes}
    (hahead : r.pushback.toList ++ inside = cursor.after)
    (hlast : r.lastRead = if cursor.fresh then cursor.before.getLast? else none)
    (hfresh : cursor.fresh = true → r.pushback = none ∧ cursor.before ≠ [])
    : ∃ cursor', cursor.Step .unread (.unread r.unreadByte.1) cursor' ∧
        cursor'.fresh = false ∧ r.unreadByte.2.lastRead = none ∧
        r.unreadByte.2.pushback.toList ++ inside = cursor'.after := by
  obtain ⟨before, after, fresh⟩ := cursor
  unfold unreadByte
  cases fresh with
  | false =>
    rw [if_neg (by simp)] at hlast
    rw [hlast]
    exact ⟨_, .refused, rfl, hlast, hahead⟩
  | true =>
    obtain ⟨hfree, hbefore⟩ := hfresh rfl
    rw [hfree] at hahead
    obtain rfl : inside = after := hahead
    obtain ⟨init, b, rfl⟩ : ∃ init b, before = init ++ [b] :=
      ⟨_, _, (List.dropLast_concat_getLast hbefore).symm⟩
    rw [if_pos rfl, List.getLast?_concat] at hlast
    rw [hlast]
    exact ⟨_, .unread, rfl, rfl, rfl⟩

/--
A reader that stands in a body as a cursor does. Of the bytes after the cursor `inside` are still
in the stream, and one more may be held back by the reader; `behind` is what follows the body.
-/
structure StandsAt (max : Nat) (inside behind : Bytes) (cursor : Cursor) (r : FrameReader)
    : Prop where
  faultless : r.source.Faultless
  bytes : r.source.bytes = inside ++ behind
  remaining : r.remaining = some inside.length
  ahead : r.pushback.toList ++ inside = cursor.after
  lastRead : r.lastRead = if cursor.fresh then cursor.before.getLast? else none
  fresh : cursor.fresh = true → r.pushback = none ∧ cursor.before ≠ []
  max : r.maxMessageSize = max

namespace StandsAt

variable {max : Nat} {inside behind : Bytes} {cursor : Cursor} {r : FrameReader}

theorem upTo_eq (h : StandsAt max inside behind cursor r)
    : r.source.upTo r.remaining = inside := by
  rw [h.remaining, Source.upTo, h.bytes, List.take_left]

theorem inside_eq (h : StandsAt max inside behind cursor r) (hfree : r.pushback = none)
    : inside = cursor.after := by
  have hahead := h.ahead
  rw [hfree] at hahead
  exact hahead

theorem read (h : StandsAt max inside behind cursor r) (size : Nat)
    : ∃ cursor' inside', cursor.Step (.read size) (.read (r.read size).1) cursor' ∧
        StandsAt max inside' behind cursor' (r.read size).2 := by
  have hreads := r.reads size
  generalize r.read size = result at hreads
  obtain ⟨before, after, fresh⟩ := cursor
  cases hreads with
  | nothing unasked =>
    subst unasked
    exact ⟨_, inside, .nothing, h⟩
  | @heldBack b asked held =>
    obtain rfl : [b] ++ inside = after := by
      have hahead := h.ahead
      rw [held] at hahead
      exact hahead
    refine ⟨_, inside, .read (List.cons_ne_nil b []) (Nat.pos_of_ne_zero asked), ?_⟩
    exact ⟨h.faultless, h.bytes, h.remaining, rfl, by simp, by simp, h.max⟩
  | atEnd asked free spent =>
    obtain rfl : inside = after := h.inside_eq free
    obtain rfl : inside = [] := by
      rw [h.remaining] at spent
      simpa using spent
    refine ⟨_, [], .atEnd asked, ?_⟩
    exact ⟨h.faultless, h.bytes, h.remaining, by simp [free], rfl, by simp, h.max⟩
  | fault asked free within met => exact absurd met (h.faultless.fill_ne_fault _ _)
  | cutShort asked free within begun met =>
    -- The body is in the stream, so that the stream does not end inside it.
    have hbytes := Source.bytes_of_fill_ended met
    rw [h.bytes, List.append_eq_nil_iff] at hbytes
    obtain ⟨rfl, -⟩ := hbytes
    rw [h.remaining] at within
    exact absurd (Option.some.inj within).symm begun
  | ended asked free unbounded met =>
    rw [h.remaining] at unbounded
    cases unbounded
  | @taken bytes more rest asked free begun met nonempty fits within =>
    obtain rfl : inside = after := h.inside_eq free
    have hsplit := Source.bytes_of_fill_data met
    rw [h.bytes, List.append_assoc] at hsplit
    obtain ⟨inside', rfl⟩ : bytes <+: inside := by
      apply List.prefix_of_prefix_length_le _ (List.prefix_append inside behind)
      . exact within inside.length h.remaining
      . rw [hsplit]
        exact List.prefix_append ..
    rw [List.append_assoc] at hsplit
    refine ⟨_, inside', .read nonempty fits, ?_⟩
    refine ⟨(h.faultless.of_fill_data met).data_cons more, ?_, ?_, ?_, ?_, ?_, h.max⟩
    . exact (List.append_cancel_left hsplit).symm
    . simp [h.remaining]
    . simp [free]
    . simp [List.getLast?_eq_some_getLast nonempty]
    . simp [free, nonempty]

theorem unreadByte (h : StandsAt max inside behind cursor r)
    : ∃ cursor', cursor.Step .unread (.unread r.unreadByte.1) cursor' ∧
        StandsAt max inside behind cursor' r.unreadByte.2 := by
  obtain ⟨cursor', hstep, hstale, hlast, hahead⟩ := exists_unread h.ahead h.lastRead h.fresh
  obtain ⟨hsource, hremaining, hmax⟩ := unreadByte_kept r
  refine ⟨cursor', hstep, ?_, ?_, ?_, hahead, by simp [hlast, hstale], by simp [hstale], ?_⟩
  . rw [hsource]
    exact h.faultless
  . rw [hsource, h.bytes]
  . rw [hremaining, h.remaining]
  . rw [hmax, h.max]

theorem behindBody (h : StandsAt max inside behind cursor r) {rest : Source}
    (hrest : rest.Faultless) (hsplit : r.source.bytes = r.source.upTo r.remaining ++ rest.bytes)
    : r.isShort = false ∧ r.ahead = cursor.after ∧
        StandsAt max [] behind ⟨cursor.before ++ cursor.after, [], false⟩ (r.behindBody rest) := by
  have hleft : r.source.left = inside.length + behind.length := by
    rw [Source.left, h.bytes, List.length_append]
  rw [h.upTo_eq, h.bytes] at hsplit
  refine ⟨?_, ?_, hrest, ?_, ?_, rfl, rfl, by simp, h.max⟩
  . simp [isShort, h.remaining, hleft]
  . rw [FrameReader.ahead, h.upTo_eq, h.ahead]
  . exact (List.append_cancel_left hsplit).symm
  . simp [FrameReader.behindBody, h.remaining, hleft]

theorem readToEnd (h : StandsAt max inside behind cursor r)
    : ∃ cursor', cursor.Step .readToEnd (.readToEnd r.readToEnd.1) cursor' ∧
        StandsAt max [] behind cursor' r.readToEnd.2 := by
  obtain ⟨rest, hrest, hsplit, hread⟩ := readToEnd_eq h.faultless
  obtain ⟨hshort, hahead, hstands⟩ := h.behindBody hrest hsplit
  rw [hread, ending, hshort, hahead]
  exact ⟨_, .readToEnd, hstands⟩

theorem readBody (h : StandsAt max inside behind cursor r)
    : ∃ cursor', cursor.Step .readBody (.readBody r.readBody.1) cursor' ∧
        StandsAt max [] behind cursor' r.readBody.2 := by
  obtain ⟨rest, hrest, hsplit, hread⟩ := readBody_eq h.faultless h.remaining
  obtain ⟨hshort, hahead, hstands⟩ := h.behindBody hrest hsplit
  rw [hread, hshort, hahead]
  exact ⟨_, .readBody, hstands⟩

theorem perform (h : StandsAt max inside behind cursor r) {op : Operation} (hop : op ≠ .next)
    : ∃ cursor' inside', cursor.Step op (r.perform op).1 cursor' ∧
        StandsAt max inside' behind cursor' (r.perform op).2 := by
  cases op with
  | next => exact absurd rfl hop
  | read size => exact h.read size
  | unread =>
    obtain ⟨cursor', hstep, hstands⟩ := h.unreadByte
    exact ⟨cursor', inside, hstep, hstands⟩
  | readBody =>
    obtain ⟨cursor', hstep, hstands⟩ := h.readBody
    exact ⟨cursor', [], hstep, hstands⟩
  | readToEnd =>
    obtain ⟨cursor', hstep, hstands⟩ := h.readToEnd
    exact ⟨cursor', [], hstep, hstands⟩

theorem performAll (h : StandsAt max inside behind cursor r) {ops : List Operation}
    (hops : .next ∉ ops)
    : ∃ last inside', cursor.Runs ops (r.performAll ops).1 last ∧
        StandsAt max inside' behind last (r.performAll ops).2 := by
  induction ops generalizing r cursor inside with
  | nil => exact ⟨cursor, inside, .nil, h⟩
  | cons op ops ih =>
    rw [List.mem_cons, not_or] at hops
    obtain ⟨next, inside', hstep, hnext⟩ := h.perform (Ne.symm hops.1)
    obtain ⟨last, inside'', hrest, hlast⟩ := ih hnext hops.2
    exact ⟨last, inside'', .cons hstep hrest, hlast⟩

theorem nextMessage (h : StandsAt max inside behind cursor r)
    : ∃ rest : Source, rest.Faultless ∧ rest.bytes = behind ∧
        r.nextMessage = FrameReader.nextMessage { source := rest, maxMessageSize := max } := by
  rcases h.faultless.skip_cases inside.length with ⟨-, rest, hrest, hbytes, hskip⟩ | ⟨hshort, -⟩
  . rw [h.bytes, List.drop_left] at hbytes
    refine ⟨rest, hrest, hbytes, ?_⟩
    rw [nextMessage_of_skip h.remaining hskip, h.max]
  . rw [Source.left, h.bytes, List.length_append] at hshort
    omega

end StandsAt

theorem standsAt_of_nextMessage {r within : FrameReader} {header : FrameHeader}
    {body behind : Bytes} (hnext : r.nextMessage = (.ok header, within))
    (hlength : header.contentLength = some body.length) (hfaultless : within.source.Faultless)
    (hbytes : within.source.bytes = body ++ behind)
    : StandsAt r.maxMessageSize body behind ⟨[], body, false⟩ within := by
  rw [eq_of_nextMessage hnext]
  exact ⟨hfaultless, hbytes, hlength, rfl, rfl, by simp, rfl⟩

/--
The head of a frame has been read, its body is in the stream in chunks of any size, and anything may
follow it. Then reads, steps back and reads of the whole body, in any order, are answered as by a
cursor over the body. Of the bytes after the cursor at most the next one has been taken from the
stream, and nothing of what follows the body. The next frame is read as by a new reader that has
all that follows the body before it.
-/
theorem reads_as_cursor {r within : FrameReader} {header : FrameHeader} {body behind : Bytes}
    (hnext : r.nextMessage = (.ok header, within))
    (hlength : header.contentLength = some body.length) (hfaultless : within.source.Faultless)
    (hbytes : within.source.bytes = body ++ behind) {ops : List Operation} (hops : .next ∉ ops)
    : ∃ cursor : Cursor, Cursor.Runs ⟨[], body, false⟩ ops (within.performAll ops).1 cursor ∧
        cursor.before ++ cursor.after = body ∧
        (∃ (held : Option UInt8) (inside : Bytes), held.toList ++ inside = cursor.after ∧
          (within.performAll ops).2.source.bytes = inside ++ behind) ∧
        ∃ rest : Source, rest.Faultless ∧ rest.bytes = behind ∧
          (within.performAll ops).2.nextMessage
            = nextMessage { source := rest, maxMessageSize := r.maxMessageSize } := by
  have hstands := standsAt_of_nextMessage hnext hlength hfaultless hbytes
  obtain ⟨cursor, inside, hruns, hlast⟩ := hstands.performAll hops
  exact ⟨cursor, hruns, hruns.whole, ⟨_, inside, hlast.ahead, hlast.bytes⟩, hlast.nextMessage⟩

def threeChunks : FrameReader :=
  { source := ["Content-Length: 5\x0d\x0a\x0d\x0ahe", "l", "loContent-Length: 1\x0d\x0a", "\x0d\x0a!"].map
      fun text => .data (Text.Utf8.encode text) }

def secondFrame : Bytes :=
  Text.Utf8.encode "Content-Length: 1\x0d\x0a\x0d\x0a!"

theorem reads_as_cursor_of_threeChunks
    : ∃ header within, threeChunks.nextMessage = (.ok header, within) ∧
        ∃ cursor : Cursor,
          Cursor.Runs ⟨[], Text.Utf8.encode "hello", false⟩ [.read 4, .unread, .read 0, .read 3]
            (within.performAll [.read 4, .unread, .read 0, .read 3]).1 cursor ∧
          (within.performAll [.read 4, .unread, .read 0, .read 3]).2.source.bytes
            = Text.Utf8.encode "llo" ++ secondFrame ∧
          ∃ rest : Source, rest.Faultless ∧ rest.bytes = secondFrame ∧
            (within.performAll [.read 4, .unread, .read 0, .read 3]).2.nextMessage
              = nextMessage { source := rest } := by
  have hlength : threeChunks.nextMessage.1.toOption.map (·.contentLength) = some (some 5) := by
    decide +kernel
  have hsource : threeChunks.nextMessage.2.source
      = ["he", "l", "loContent-Length: 1\x0d\x0a", "\x0d\x0a!"].map
          fun text => .data (Text.Utf8.encode text) := by
    decide +kernel
  have hleft : (threeChunks.nextMessage.2.performAll
      [.read 4, .unread, .read 0, .read 3]).2.source.bytes
        = Text.Utf8.encode "llo" ++ secondFrame := by
    decide +kernel
  rcases hresult : threeChunks.nextMessage with ⟨answer, within⟩
  rw [hresult] at hlength hsource hleft
  cases answer with
  | error cause => cases hlength
  | ok header =>
    have hfaultless : within.source.Faultless := by
      intro cause hmem
      rw [hsource] at hmem
      simp at hmem
    have hbytes : within.source.bytes = Text.Utf8.encode "hello" ++ secondFrame := by
      rw [hsource]
      decide +kernel
    have hbody : header.contentLength = some (Text.Utf8.encode "hello").length :=
      Option.some.inj hlength
    have hops : Operation.next ∉ [.read 4, .unread, .read 0, .read 3] := by simp
    obtain ⟨cursor, hruns, -, -, hnext⟩ :=
      reads_as_cursor hresult hbody hfaultless hbytes hops
    exact ⟨header, within, rfl, cursor, hruns, hleft, hnext⟩

end FrameReader

end JsonRpc
