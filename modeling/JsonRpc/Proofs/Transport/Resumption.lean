import JsonRpc.Proofs.Transport.HeaderBlock
import JsonRpc.Proofs.Transport.Operation

/-!
What a reader knows of a body while the stream below fails and goes on. Main statement: its record
of what remains of the body is wrong by the bytes that it took on the way to the next frame when the
stream failed, and the next frame is looked for so many bytes behind the body.
-/

namespace JsonRpc

namespace FrameReader

structure Counts (taken : Bytes) (r r' : FrameReader) : Prop where
  bytes : r.source.bytes = taken ++ r'.source.bytes
  remaining : r.remaining = r'.remaining.map (taken.length + ·)
  max : r'.maxMessageSize = r.maxMessageSize

namespace Counts

variable {r r' : FrameReader} {taken : Bytes}

theorem none_taken (hbytes : r.source.bytes = r'.source.bytes)
    (hremaining : r.remaining = r'.remaining) (hmax : r'.maxMessageSize = r.maxMessageSize)
    : Counts [] r r' := by
  refine ⟨hbytes, ?_, hmax⟩
  simp [hremaining]

theorem trans {next : FrameReader} {more : Bytes} (h : Counts taken r next)
    (hnext : Counts more next r') : Counts (taken ++ more) r r' := by
  refine ⟨?_, ?_, hnext.max.trans h.max⟩
  . rw [h.bytes, hnext.bytes, List.append_assoc]
  . simp [h.remaining, hnext.remaining, Function.comp_def, Nat.add_assoc]

theorem read (r : FrameReader) (size : Nat) : ∃ taken, Counts taken r (r.read size).2 := by
  have hreads := r.reads size
  generalize r.read size = result at hreads
  cases hreads with
  | nothing | heldBack | atEnd => exact ⟨[], none_taken rfl rfl rfl⟩
  | fault asked free inside met => exact ⟨[], none_taken (Source.bytes_of_fill_fault met) rfl rfl⟩
  | cutShort asked free inside begun met =>
    exact ⟨[], none_taken (Source.bytes_of_fill_ended met) rfl rfl⟩
  | ended asked free unbounded met =>
    exact ⟨[], none_taken (Source.bytes_of_fill_ended met) rfl rfl⟩
  | @taken bytes more rest asked free inside met nonempty fits within =>
    refine ⟨bytes, ?_, ?_, rfl⟩
    . rw [Source.bytes_of_fill_data met, List.append_assoc]
      rfl
    . dsimp only
      cases hremaining : r.remaining with
      | none => rfl
      | some left =>
        have hle := within left hremaining
        simp only [Option.map_some, Option.some.injEq]
        omega

theorem readToEnd_go (acc : Bytes) (r : FrameReader)
    : ∃ taken, Counts taken r (readToEnd.go acc r).2 := by
  fun_induction readToEnd.go acc r with
  | case1 acc r cause r' hread | case2 acc r r' hread =>
    have hcounts := read r bufferSize
    rw [hread] at hcounts
    exact hcounts
  | case3 acc r b bytes r' hread hless ih =>
    obtain ⟨taken, hcounts⟩ := read r bufferSize
    rw [hread] at hcounts
    obtain ⟨more, hmore⟩ := ih
    exact ⟨taken ++ more, hcounts.trans hmore⟩

theorem readBody (r : FrameReader) : ∃ taken, Counts taken r r.readBody.2 := by
  have hcounts := readToEnd_go [] r
  unfold FrameReader.readBody readToEnd
  split
  . exact ⟨[], none_taken rfl rfl rfl⟩
  . split
    . next heq =>
      rw [heq] at hcounts
      exact hcounts
    . next heq =>
      rw [heq] at hcounts
      exact hcounts
    . next heq =>
      rw [heq] at hcounts
      exact hcounts

theorem unreadByte (r : FrameReader) : Counts [] r r.unreadByte.2 := by
  unfold FrameReader.unreadByte
  split <;> exact none_taken rfl rfl rfl

theorem exists_remaining {left : Nat} (h : Counts taken r r') (hleft : r.remaining = some left)
    : ∃ left', r'.remaining = some left' ∧ left' + taken.length = left := by
  have hremaining := h.remaining
  rw [hleft, eq_comm, Option.map_eq_some_iff] at hremaining
  obtain ⟨left', hleft', hsum⟩ := hremaining
  exact ⟨left', hleft', by omega⟩

theorem taken_eq {taken' : Bytes} (h : Counts taken r r')
    (htook : r.source.bytes = taken' ++ r'.source.bytes) : taken = taken' :=
  List.append_cancel_right (h.bytes.symm.trans htook)

theorem perform (r : FrameReader) {op : Operation} (hop : op ≠ .next)
    : ∃ taken, Counts taken r (r.perform op).2 := by
  cases op with
  | next => exact absurd rfl hop
  | read size => exact read r size
  | unread => exact ⟨[], unreadByte r⟩
  | readBody => exact readBody r
  | readToEnd => exact readToEnd_go [] r

end Counts

theorem counts_of_discardBody {r r' : FrameReader} {reason : String}
    (h : r.discardBody = (.error (.unexpectedEof reason), r')) : Counts r.source.bytes r r' := by
  have hdiscards := r.discards
  rw [h] at hdiscards
  cases hdiscards with
  | @ended left missing inside met =>
    obtain ⟨-, hleft, -⟩ := Source.of_skip_ended met
    refine ⟨by simp [Source.bytes], ?_, rfl⟩
    rw [inside, ← hleft]
    rfl

theorem uncounted_of_discardBody {r r' : FrameReader} {cause : IoFault}
    (h : r.discardBody = (.error (.receiveFailed cause), r'))
    : r'.remaining = r.remaining ∧ r'.maxMessageSize = r.maxMessageSize := by
  have hdiscards := r.discards
  rw [h] at hdiscards
  cases hdiscards with
  | fault inside met => exact ⟨rfl, rfl⟩

/--
What may happen to a reader that stands at the front of a body until it gets past the body. It has
taken the bytes `passed` from the stream since, and `lost` of them were taken by calls for the next
frame that a failure of the stream broke off.
-/
inductive Since (start : FrameReader) : (passed : Bytes) → (lost : Nat) → FrameReader → Prop
  | start : Since start [] 0 start
  | goesOn {passed : Bytes} {lost : Nat} {r : FrameReader} (since : Since start passed lost r)
      (more : Source) : Since start passed lost { r with source := r.source ++ more }
  | performs {passed taken : Bytes} {lost : Nat} {r : FrameReader} {op : Operation}
      (since : Since start passed lost r) (within : op ≠ .next)
      (took : r.source.bytes = taken ++ (r.perform op).2.source.bytes)
      : Since start (passed ++ taken) lost (r.perform op).2
  | starves {passed taken : Bytes} {lost : Nat} {r : FrameReader} {reason : String}
      (since : Since start passed lost r)
      (ended : r.discardBody.1 = .error (.unexpectedEof reason))
      (took : r.source.bytes = taken ++ r.nextMessage.2.source.bytes)
      : Since start (passed ++ taken) lost r.nextMessage.2
  | breaksOff {passed taken : Bytes} {lost : Nat} {r : FrameReader} {cause : IoFault}
      (since : Since start passed lost r)
      (failed : r.discardBody.1 = .error (.receiveFailed cause))
      (took : r.source.bytes = taken ++ r.nextMessage.2.source.bytes)
      : Since start (passed ++ taken) (lost + taken.length) r.nextMessage.2

theorem discardBody_eq_of_error {r : FrameReader} {cause : TransportError}
    (h : r.discardBody.1 = .error cause) : r.discardBody = (.error cause, r.nextMessage.2) := by
  rcases hresult : r.discardBody with ⟨answer, r'⟩
  rw [hresult] at h
  subst h
  rw [nextMessage_of_discardBody_error hresult]

namespace Since

variable {start last : FrameReader} {n lost : Nat} {passed : Bytes}

theorem record (hstart : start.remaining = some n) (h : Since start passed lost last)
    : ∃ left, last.remaining = some left ∧ left + passed.length = n + lost := by
  induction h with
  | start => exact ⟨n, hstart, rfl⟩
  | goesOn since more ih => exact ih
  | performs since within took ih =>
    obtain ⟨left, hleft, hrecord⟩ := ih
    obtain ⟨taken, hcounts⟩ := Counts.perform _ within
    obtain ⟨left', hleft', hsum⟩ := hcounts.exists_remaining hleft
    obtain rfl := hcounts.taken_eq took
    refine ⟨left', hleft', ?_⟩
    rw [List.length_append]
    omega
  | starves since ended took ih =>
    obtain ⟨left, hleft, hrecord⟩ := ih
    have hcounts := counts_of_discardBody (discardBody_eq_of_error ended)
    obtain ⟨left', hleft', hsum⟩ := hcounts.exists_remaining hleft
    obtain rfl := hcounts.taken_eq took
    refine ⟨left', hleft', ?_⟩
    rw [List.length_append]
    omega
  | breaksOff since failed took ih =>
    obtain ⟨left, hleft, hrecord⟩ := ih
    obtain ⟨hkept, -⟩ := uncounted_of_discardBody (discardBody_eq_of_error failed)
    refine ⟨left, hkept.trans hleft, ?_⟩
    rw [List.length_append]
    omega

theorem maxMessageSize_eq (h : Since start passed lost last)
    : last.maxMessageSize = start.maxMessageSize := by
  induction h with
  | start => rfl
  | goesOn since more ih => exact ih
  | performs since within took ih =>
    obtain ⟨taken, hcounts⟩ := Counts.perform _ within
    exact hcounts.max.trans ih
  | starves since ended took ih =>
    exact (counts_of_discardBody (discardBody_eq_of_error ended)).max.trans ih
  | breaksOff since failed took ih =>
    obtain ⟨-, hmax⟩ := uncounted_of_discardBody (discardBody_eq_of_error failed)
    exact hmax.trans ih

end Since

theorem nextMessage_data_nil (rest : Source) (max : Nat)
    : nextMessage { source := .data [] :: rest, maxMessageSize := max }
        = nextMessage { source := rest, maxMessageSize := max } := by
  have hheaders : readHeaders (.data [] :: rest) = readHeaders rest := by
    unfold readHeaders
    rw [readHeaders.go_eq, readHeaders.go_eq rest]
    rfl
  unfold nextMessage discardBody
  simp [Source.skip, hheaders]

theorem nextMessage_of_body {r : FrameReader} {body : Bytes} {rest : Source}
    (hbody : r.remaining = some body.length)
    : nextMessage { r with source := .data body :: rest }
        = nextMessage { source := rest, maxMessageSize := r.maxMessageSize } := by
  cases body with
  | nil =>
    rw [← nextMessage_data_nil]
    exact nextMessage_of_skip hbody rfl
  | cons b body =>
    have hskip : Source.skip (b :: body).length (.data (b :: body) :: rest) = .done rest := by
      simp [Source.skip]
    exact nextMessage_of_skip hbody hskip

/--
A reader stands at the front of a body of `n` bytes. Until it gets past the body, whatever is asked
of it and wherever the stream fails, ends and goes on, its record of what remains is what is left
of the body, but for the bytes that were lost: those that were taken on the way to the next frame
when the stream failed. As soon as the stream brings all that the reader waits for, the next frame
is read, from so many bytes behind the body on as were lost. If none was then it is the frame that
is read of a stream that brings the body without a failure.
-/
theorem resumes_behind_lost {r start last : FrameReader} {header : FrameHeader} {n lost : Nat}
    {passed : Bytes} (hnext : r.nextMessage = (.ok header, start))
    (hlength : header.contentLength = some n) (hsince : Since start passed lost last)
    : (∃ left, last.remaining = some left ∧ left + passed.length = n + lost) ∧
        ∀ before behind : Source, last.source = before ++ behind → before.Faultless →
          n + lost ≤ passed.length + before.left →
          ∃ (skipped : Bytes) (rest : Source), last.source.bytes = skipped ++ rest.bytes ∧
            passed.length + skipped.length = n + lost ∧
            last.nextMessage
              = nextMessage { source := rest, maxMessageSize := r.maxMessageSize } ∧
            (lost = 0 → last.nextMessage
              = nextMessage { start with source := .data (passed ++ skipped) :: rest }) := by
  have hstart := eq_of_nextMessage hnext
  have hremaining : start.remaining = some n := by rw [hstart, hlength]
  have hmax : start.maxMessageSize = r.maxMessageSize := by rw [hstart]
  obtain ⟨left, hleft, hrecord⟩ := hsince.record hremaining
  refine ⟨⟨left, hleft, hrecord⟩, ?_⟩
  intro before behind hsource hbefore henough
  obtain ⟨rest, hskip⟩ := Source.skip_of_le hbefore (n := left) (by omega) behind
  rw [← hsource] at hskip
  obtain ⟨skipped, hskipped, hlengthSkipped, -⟩ := Source.of_skip_done hskip
  have hresumed := nextMessage_of_skip hleft hskip
  rw [hsince.maxMessageSize_eq] at hresumed
  refine ⟨skipped, rest, hskipped, by omega, hmax ▸ hresumed, ?_⟩
  intro hlost
  have hbody : start.remaining = some (passed ++ skipped).length := by
    rw [hremaining, List.length_append]
    congr 1
    omega
  rw [hresumed, nextMessage_of_body hbody]

def failing : FrameReader :=
  { source := [.data (Text.Utf8.encode "Content-Length: 5\x0d\x0a\x0d\x0aab"),
      .fault ⟨.other, "reset"⟩, .data (Text.Utf8.encode "cdeContent-Length: 2\x0d\x0a\x0d\x0aok")] }

/-- Two bytes are lost, so that the next head is read from its third byte on. -/
theorem misread_of_failing
    : ∃ header start broken next behind, failing.nextMessage = (.ok header, start) ∧
        header.contentLength = some 5 ∧
        start.nextMessage = (.error (.receiveFailed ⟨.other, "reset"⟩), broken) ∧
        start.source.bytes = Text.Utf8.encode "ab" ++ broken.source.bytes ∧
        broken.remaining = some 5 ∧ broken.nextMessage = (.ok next, behind) ∧
        next.headers.entries = [("Ntent-Length", "2")] ∧ next.contentLength = none := by
  obtain ⟨header, hnext, -, hlength⟩ := exists_head failing
    [("Content-Length", "5")] (some 5) (by decide +kernel)
  have hdiscard : failing.nextMessage.2.discardBody.1
      = .error (.receiveFailed ⟨.other, "reset"⟩) := by
    decide +kernel
  obtain ⟨next, hagain, hentries, hunknown⟩ := exists_head failing.nextMessage.2.nextMessage.2
    [("Ntent-Length", "2")] none (by decide +kernel)
  exact ⟨header, _, _, next, _, hnext, hlength,
    nextMessage_of_discardBody_error (discardBody_eq_of_error hdiscard), by decide +kernel,
    by decide +kernel, hagain, hentries, hunknown⟩

def starved : FrameReader :=
  { source := .ofBytes (Text.Utf8.encode "Content-Length: 5\x0d\x0a\x0d\x0aab") }

def supply : Source :=
  [.fault ⟨.other, "reset"⟩, .data (Text.Utf8.encode "cd"),
    .data (Text.Utf8.encode "eContent-Length: 2\x0d\x0a\x0d\x0aok")]

def supplied : FrameReader :=
  let ended := starved.nextMessage.2.nextMessage.2
  { ended with source := ended.source ++ supply }

theorem since_of_supplied
    : Since starved.nextMessage.2 (Text.Utf8.encode "ab") 0 supplied.nextMessage.2 := by
  have hended : starved.nextMessage.2.discardBody.1
      = .error (.unexpectedEof "3 body bytes missing") := by
    decide +kernel
  have htook : starved.nextMessage.2.source.bytes
      = Text.Utf8.encode "ab" ++ starved.nextMessage.2.nextMessage.2.source.bytes := by
    decide +kernel
  have hfailed : supplied.discardBody.1 = .error (.receiveFailed ⟨.other, "reset"⟩) := by
    decide +kernel
  have hnothing : supplied.source.bytes = [] ++ supplied.nextMessage.2.source.bytes := by
    decide +kernel
  exact ((Since.start.starves hended htook).goesOn supply).breaksOff hfailed hnothing

theorem resumes_behind_lost_of_starved
    : ∃ header start last, starved.nextMessage = (.ok header, start) ∧
        header.contentLength = some 5 ∧ Since start (Text.Utf8.encode "ab") 0 last ∧
        last.remaining = some 3 ∧
        ∃ rest : Source, last.nextMessage
          = nextMessage { start with source := .data (Text.Utf8.encode "abcde") :: rest } := by
  obtain ⟨header, hnext, -, hlength⟩ := exists_head starved [("Content-Length", "5")] (some 5)
    (by decide +kernel)
  obtain ⟨⟨left, hleft, hrecord⟩, hresumes⟩ :=
    resumes_behind_lost hnext hlength since_of_supplied
  have hab : (Text.Utf8.encode "ab").length = 2 := by decide
  have hsource : supplied.nextMessage.2.source = supply.tail ++ [] := by decide +kernel
  have hfaultless : Source.Faultless supply.tail := by simp [Source.Faultless, supply]
  obtain ⟨skipped, rest, hskipped, hlengthSkipped, -, hsame⟩ :=
    hresumes supply.tail [] hsource hfaultless (by decide +kernel)
  obtain rfl : left = 3 := by omega
  have hbytes : supplied.nextMessage.2.source.bytes = Text.Utf8.encode "cde"
      ++ Text.Utf8.encode "Content-Length: 2\x0d\x0a\x0d\x0aok" := by
    decide +kernel
  have hcde : (Text.Utf8.encode "cde").length = 3 := by decide
  obtain ⟨rfl, -⟩ := List.append_inj (hbytes.symm.trans hskipped) (by omega)
  exact ⟨header, _, _, hnext, hlength, since_of_supplied, hleft, rest, hsame rfl⟩

end FrameReader

end JsonRpc
