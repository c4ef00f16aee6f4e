import JsonRpc.Proofs.Transport.Cursor

/-!
Bodies without a declared length, which the caller frames. A reader inside one is a cursor over the
rest of the stream, and the next frame is looked for behind the last byte that the caller kept. Main
statement: this is so unless a byte is held back just then, which is passed over.
-/

namespace JsonRpc

namespace FrameReader

def Reply.bytes : Reply → Bytes
  | .read (.ok bytes) | .readBody (.ok bytes) | .readToEnd (_, bytes) => bytes
  | _ => []

def Reply.takesBack : Reply → Bool
  | .unread (.ok _) => true
  | _ => false

def Reply.moves (reply : Reply) : Bool :=
  reply.takesBack || !reply.bytes.isEmpty

def HeldBack (replies : List Reply) : Prop :=
  ∃ reply, (replies.filter Reply.moves).getLast? = some reply ∧ reply.takesBack

instance (replies : List Reply) : Decidable (HeldBack replies) :=
  decidable_of_iff ((replies.filter Reply.moves).getLast?.any Reply.takesBack)
    (Option.any_eq_true ..)

theorem not_heldBack_nil : ¬HeldBack [] := by
  rintro ⟨reply, hreply, -⟩
  cases hreply

def Reply.holds (reply : Reply) (held : Bool) : Bool :=
  if reply.moves then reply.takesBack else held

theorem heldBack_snoc {replies : List Reply} {held : Bool} (h : held ↔ HeldBack replies)
    (reply : Reply) : reply.holds held ↔ HeldBack (replies ++ [reply]) := by
  unfold HeldBack at h ⊢
  unfold Reply.holds
  rw [List.filter_append]
  cases hmoves : reply.moves with
  | true => simp [hmoves]
  | false => simpa [hmoves] using h

theorem Cursor.Step.kept {cursor next : Cursor} {op : Operation} {reply : Reply}
    (h : cursor.Step op reply next)
    : next.before.length + (if reply.takesBack then 1 else 0)
        = cursor.before.length + reply.bytes.length := by
  cases h <;> simp [Reply.takesBack, Reply.bytes]

theorem Cursor.Runs.kept {cursor last : Cursor} {ops : List Operation} {replies : List Reply}
    (h : cursor.Runs ops replies last)
    : last.before.length + replies.countP Reply.takesBack
        = cursor.before.length + (replies.flatMap Reply.bytes).length := by
  induction h with
  | nil => rfl
  | cons step rest ih =>
    have hstep := step.kept
    rw [List.countP_cons, List.flatMap_cons, List.length_append]
    omega

def Operation.IsFraming : Operation → Prop
  | .read _ | .unread | .readToEnd => True
  | .next | .readBody => False

structure Roams (max : Nat) (cursor : Cursor) (r : FrameReader) : Prop where
  faultless : r.source.Faultless
  unbounded : r.remaining = none
  ahead : r.pushback.toList ++ r.source.bytes = cursor.after
  lastRead : r.lastRead = if cursor.fresh then cursor.before.getLast? else none
  fresh : cursor.fresh = true → r.pushback = none ∧ cursor.before ≠ []
  max : r.maxMessageSize = max

namespace Roams

variable {max : Nat} {cursor : Cursor} {r : FrameReader}

theorem bytes_eq (h : Roams max cursor r) (hfree : r.pushback = none)
    : r.source.bytes = cursor.after := by
  have hahead := h.ahead
  rw [hfree] at hahead
  exact hahead

theorem read (h : Roams max cursor r) (size : Nat)
    : ∃ cursor', cursor.Step (.read size) (.read (r.read size).1) cursor' ∧
        Roams max cursor' (r.read size).2 := by
  have hreads := r.reads size
  generalize r.read size = result at hreads
  obtain ⟨before, after, fresh⟩ := cursor
  cases hreads with
  | nothing unasked =>
    subst unasked
    exact ⟨_, .nothing, h⟩
  | @heldBack b asked held =>
    obtain rfl : [b] ++ r.source.bytes = after := by
      have hahead := h.ahead
      rw [held] at hahead
      exact hahead
    refine ⟨_, .read (List.cons_ne_nil b []) (Nat.pos_of_ne_zero asked), ?_⟩
    exact ⟨h.faultless, h.unbounded, rfl, by simp, by simp, h.max⟩
  | atEnd asked free spent =>
    rw [h.unbounded] at spent
    cases spent
  | fault asked free within met => exact absurd met (h.faultless.fill_ne_fault _ _)
  | cutShort asked free within =>
    rw [h.unbounded] at within
    cases within
  | ended asked free unbounded met =>
    obtain rfl : [] = after := (Source.bytes_of_fill_ended met).symm.trans (h.bytes_eq free)
    refine ⟨_, .atEnd asked, ?_⟩
    refine ⟨by simp [Source.Faultless], h.unbounded, ?_, rfl, by simp, h.max⟩
    simp [free, Source.bytes]
  | @taken bytes more rest asked free begun met nonempty fits within =>
    have hsplit := Source.bytes_of_fill_data met
    rw [h.bytes_eq free, List.append_assoc] at hsplit
    dsimp only at hsplit
    subst hsplit
    refine ⟨_, .read nonempty fits, ?_⟩
    refine ⟨(h.faultless.of_fill_data met).data_cons more, ?_, ?_, ?_, ?_, h.max⟩
    . simp [h.unbounded]
    . simp [free, Source.bytes]
    . simp [List.getLast?_eq_some_getLast nonempty]
    . simp [free, nonempty]

theorem unreadByte (h : Roams max cursor r)
    : ∃ cursor', cursor.Step .unread (.unread r.unreadByte.1) cursor' ∧
        Roams max cursor' r.unreadByte.2 := by
  obtain ⟨cursor', hstep, hstale, hlast, hahead⟩ := exists_unread h.ahead h.lastRead h.fresh
  obtain ⟨hsource, hremaining, hmax⟩ := unreadByte_kept r
  refine ⟨cursor', hstep, ?_, ?_, ?_, by simp [hlast, hstale], by simp [hstale], ?_⟩
  . rw [hsource]
    exact h.faultless
  . rw [hremaining, h.unbounded]
  . rw [hsource, hahead]
  . rw [hmax, h.max]

theorem readToEnd (h : Roams max cursor r)
    : ∃ cursor', cursor.Step .readToEnd (.readToEnd r.readToEnd.1) cursor' ∧
        Roams max cursor' r.readToEnd.2 := by
  obtain ⟨rest, hrest, hsplit, hread⟩ := readToEnd_eq h.faultless
  have hahead : r.ahead = cursor.after := by
    rw [FrameReader.ahead, h.unbounded, Source.upTo, h.ahead]
  have hnone : rest.bytes = [] := by
    rw [h.unbounded, Source.upTo] at hsplit
    exact List.self_eq_append_right.1 hsplit
  have hending : r.ending = .ok () := by simp [ending, isShort, h.unbounded]
  rw [hread, hending, hahead]
  refine ⟨_, .readToEnd, hrest, ?_, ?_, rfl, by simp, h.max⟩
  . simp [behindBody, h.unbounded]
  . simp [behindBody, hnone]

theorem perform (h : Roams max cursor r) {op : Operation} (hop : op.IsFraming)
    : ∃ cursor', cursor.Step op (r.perform op).1 cursor' ∧ Roams max cursor' (r.perform op).2 := by
  cases op with
  | read size => exact h.read size
  | unread => exact h.unreadByte
  | readToEnd => exact h.readToEnd
  | next | readBody => cases hop

end Roams

theorem isSome_pushback_of_perform {r : FrameReader} (hfaultless : r.source.Faultless)
    {op : Operation} (hop : op.IsFraming)
    : (r.perform op).2.pushback.isSome = (r.perform op).1.holds r.pushback.isSome := by
  cases op with
  | read size =>
    change (r.read size).2.pushback.isSome = (Reply.read (r.read size).1).holds _
    have hreads := r.reads size
    generalize r.read size = result at hreads
    cases hreads with
    | nothing | heldBack | atEnd | fault | cutShort | ended =>
      simp [Reply.holds, Reply.moves, Reply.takesBack, Reply.bytes]
    | taken asked free inside met nonempty =>
      simp [Reply.holds, Reply.moves, Reply.takesBack, Reply.bytes, free, nonempty]
  | unread =>
    change r.unreadByte.2.pushback.isSome = (Reply.unread r.unreadByte.1).holds _
    unfold unreadByte
    split <;> simp [Reply.holds, Reply.moves, Reply.takesBack, Reply.bytes]
  | readToEnd =>
    obtain ⟨rest, -, -, hread⟩ := readToEnd_eq hfaultless
    change r.readToEnd.2.pushback.isSome = (Reply.readToEnd r.readToEnd.1).holds _
    rw [hread]
    cases hheld : r.pushback <;>
      simp [Reply.holds, Reply.moves, Reply.takesBack, Reply.bytes, behindBody, ahead, hheld]
  | next | readBody => cases hop

namespace Roams

variable {max : Nat} {cursor : Cursor} {r : FrameReader}

theorem performAll (h : Roams max cursor r) {ops : List Operation}
    (hops : ∀ op ∈ ops, op.IsFraming) {past : List Reply}
    (hpast : r.pushback.isSome ↔ HeldBack past)
    : ∃ last, cursor.Runs ops (r.performAll ops).1 last ∧
        Roams max last (r.performAll ops).2 ∧
        ((r.performAll ops).2.pushback.isSome ↔ HeldBack (past ++ (r.performAll ops).1)) := by
  induction ops generalizing r cursor past with
  | nil => exact ⟨cursor, .nil, h, by simpa [FrameReader.performAll] using hpast⟩
  | cons op ops ih =>
    rw [List.forall_mem_cons] at hops
    obtain ⟨next, hstep, hnext⟩ := h.perform hops.1
    have hheld : (r.perform op).2.pushback.isSome ↔ HeldBack (past ++ [(r.perform op).1]) := by
      rw [isSome_pushback_of_perform h.faultless hops.1]
      exact heldBack_snoc hpast _
    obtain ⟨last, hrest, hlast, hheldLast⟩ := ih hnext hops.2 hheld
    refine ⟨last, .cons hstep hrest, hlast, ?_⟩
    rw [List.append_assoc] at hheldLast
    exact hheldLast

end Roams

theorem nextMessage_of_unbounded {r : FrameReader} (h : r.remaining = none)
    : r.nextMessage.1
          = (nextMessage { source := r.source, maxMessageSize := r.maxMessageSize }).1 ∧
        ∀ header, r.nextMessage.1 = .ok header →
          r.nextMessage = nextMessage { source := r.source, maxMessageSize := r.maxMessageSize } := by
  have hdiscard : r.discardBody = (.ok (), r) := by
    unfold discardBody
    rw [h]
  have hfresh : discardBody { source := r.source, maxMessageSize := r.maxMessageSize }
      = (.ok (), { source := r.source, maxMessageSize := r.maxMessageSize }) := by
    simp [discardBody, Source.skip]
  unfold nextMessage
  rw [hdiscard, hfresh]
  dsimp only
  generalize readHeaders r.source = result
  obtain ⟨answer, rest⟩ := result
  cases answer with
  | error cause => simp
  | ok headers =>
    dsimp only
    split
    . exact ⟨rfl, fun _ _ => rfl⟩
    . split <;> exact ⟨rfl, fun _ _ => rfl⟩

/--
The head of a frame without a declared length has been read, and the stream does not fail. Reads of
any size and steps back are answered as by a cursor over the rest of the stream, and its place is
told by the answers: the bytes that were handed out, less those that were taken back. The next frame
is read as by a new reader, from this place on if nothing is held back: then no byte is lost. If a
byte was taken back and has not been read again, it is passed over, and the next frame is read from
the byte behind it on.
-/
theorem resumes_behind_kept {r within : FrameReader} {header : FrameHeader}
    (hnext : r.nextMessage = (.ok header, within)) (hunknown : header.contentLength = none)
    (hfaultless : within.source.Faultless) {ops : List Operation}
    (hops : ∀ op ∈ ops, op.IsFraming)
    : ∃ (cursor : Cursor) (rest : Source),
        Cursor.Runs ⟨[], within.source.bytes, false⟩ ops (within.performAll ops).1 cursor ∧
        cursor.before ++ cursor.after = within.source.bytes ∧
        cursor.before.length + (within.performAll ops).1.countP Reply.takesBack
          = ((within.performAll ops).1.flatMap Reply.bytes).length ∧
        rest.Faultless ∧
        (within.performAll ops).2.nextMessage.1
          = (nextMessage { source := rest, maxMessageSize := r.maxMessageSize }).1 ∧
        (∀ next, (within.performAll ops).2.nextMessage.1 = .ok next →
          (within.performAll ops).2.nextMessage
            = nextMessage { source := rest, maxMessageSize := r.maxMessageSize }) ∧
        (¬HeldBack (within.performAll ops).1 → rest.bytes = cursor.after) ∧
        (HeldBack (within.performAll ops).1 → ∃ b, cursor.after = b :: rest.bytes) := by
  have hroams : Roams r.maxMessageSize ⟨[], within.source.bytes, false⟩ within := by
    rw [eq_of_nextMessage hnext]
    exact ⟨hfaultless, hunknown, rfl, rfl, by simp, rfl⟩
  have hfree : within.pushback.isSome ↔ HeldBack [] := by
    rw [eq_of_nextMessage hnext]
    simp [not_heldBack_nil]
  obtain ⟨cursor, hruns, hlast, hheld⟩ := hroams.performAll hops hfree
  rw [List.nil_append] at hheld
  obtain ⟨hanswer, hstate⟩ := nextMessage_of_unbounded hlast.unbounded
  rw [hlast.max] at hanswer hstate
  refine ⟨cursor, _, hruns, hruns.whole, ?_, hlast.faultless, hanswer, hstate, ?_, ?_⟩
  . simpa using hruns.kept
  . intro hnot
    rw [← hheld, Option.not_isSome_iff_eq_none] at hnot
    exact hlast.bytes_eq hnot
  . intro hback
    obtain ⟨b, hb⟩ := Option.isSome_iff_exists.1 (hheld.2 hback)
    refine ⟨b, ?_⟩
    rw [← hlast.ahead, hb]
    rfl

def selfFramed : FrameReader :=
  { source := ["X-Mode: raw\x0d\x0a\x0d\x0aab", "\x0aContent-Length: 2\x0d\x0a\x0d\x0aok"].map
      fun text => .data (Text.Utf8.encode text) }

def overread : List Operation :=
  [.read 2, .read 2, .unread]

/-- The byte that is given back is lost, so that the next head is read from its second byte on. -/
theorem givenBack_lost
    : ∃ header within next behind, selfFramed.nextMessage = (.ok header, within) ∧
        header.contentLength = none ∧
        within.source.bytes = Text.Utf8.encode "ab\x0aContent-Length: 2\x0d\x0a\x0d\x0aok" ∧
        (within.performAll overread).1.map Reply.bytes
          = [Text.Utf8.encode "ab", Text.Utf8.encode "\x0aC", []] ∧
        (within.performAll overread).1.map Reply.takesBack = [false, false, true] ∧
        (within.performAll overread).2.nextMessage = (.ok next, behind) ∧
        next.headers.entries = [("Ontent-Length", "2")] ∧ next.contentLength = none := by
  obtain ⟨header, hnext, -, hunknown⟩ := exists_head selfFramed [("X-Mode", "raw")] none
    (by decide +kernel)
  obtain ⟨next, hagain, hentries, hlength⟩ :=
    exists_head (selfFramed.nextMessage.2.performAll overread).2 [("Ontent-Length", "2")] none
      (by decide +kernel)
  exact ⟨header, _, next, _, hnext, hunknown, by decide +kernel, by decide +kernel,
    by decide +kernel, hagain, hentries, hlength⟩

def reread : List Operation :=
  [.read 2, .unread, .read 0, .read 5, .read 1, .unread, .read 9]

theorem resumes_behind_kept_of_reread
    : ∃ header within, selfFramed.nextMessage = (.ok header, within) ∧
        header.contentLength = none ∧
        ∃ rest : Source, rest.bytes = Text.Utf8.encode "Content-Length: 2\x0d\x0a\x0d\x0aok" ∧
          (within.performAll reread).2.nextMessage.1 = (nextMessage { source := rest }).1 := by
  obtain ⟨header, hnext, -, hunknown⟩ := exists_head selfFramed [("X-Mode", "raw")] none
    (by decide +kernel)
  have hsource : selfFramed.nextMessage.2.source
      = ["ab", "\x0aContent-Length: 2\x0d\x0a\x0d\x0aok"].map
          fun text => .data (Text.Utf8.encode text) := by
    decide +kernel
  have hfaultless : selfFramed.nextMessage.2.source.Faultless := by
    intro cause hmem
    rw [hsource] at hmem
    simp at hmem
  have hops : ∀ op ∈ reread, op.IsFraming := by simp [reread, Operation.IsFraming]
  obtain ⟨cursor, rest, -, hwhole, hkept, -, hanswer, -, hall, -⟩ :=
    resumes_behind_kept hnext hunknown hfaultless hops
  have hreread : ¬HeldBack (selfFramed.nextMessage.2.performAll reread).1 := by decide +kernel
  have hcounts : (selfFramed.nextMessage.2.performAll reread).1.countP Reply.takesBack = 2 ∧
      ((selfFramed.nextMessage.2.performAll reread).1.flatMap Reply.bytes).length = 5 := by
    decide +kernel
  have hplace : cursor.before.length = 3 := by omega
  refine ⟨header, _, hnext, hunknown, rest, ?_, hanswer⟩
  have hdrop : (cursor.before ++ cursor.after).drop cursor.before.length = cursor.after :=
    List.drop_left
  rw [hall hreread, ← hdrop, hwhole, hplace]
  decide +kernel

end FrameReader

end JsonRpc
