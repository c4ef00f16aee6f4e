import JsonRpc.Proofs.Transport.HeadersRead

/-!
Relaying frames: what a reader has taken from one stream is written to another and read back.
-/

namespace JsonRpc

namespace FrameReader

structure Entered (r : FrameReader) (header : FrameHeader) (within : FrameReader) : Prop where
  settled : header.headers.Settled
  length : header.headers.contentLength? = header.contentLength
  remaining : within.remaining = header.contentLength
  pushback : within.pushback = none
  fits : ∀ n, header.contentLength = some n → n ≤ r.maxMessageSize

theorem entered_of_nextMessage {r within : FrameReader} {header : FrameHeader}
    (h : r.nextMessage = (.ok header, within)) : r.Entered header within := by
  obtain ⟨ready, rest, -, hread, hlength, hfits, rfl⟩ := of_nextMessage h
  exact ⟨settled_of_readHeaders hread, hlength, rfl, rfl, hfits⟩

theorem of_read {r r' : FrameReader} {left : Nat} {taken : Bytes} (hpushback : r.pushback = none)
    (hleft : r.remaining = some left) (h : r.read bufferSize = (.ok taken, r'))
    : r'.pushback = none ∧ r'.remaining = some (left - taken.length) ∧ taken.length ≤ left ∧
        (taken = [] → left = 0) := by
  have hreads := r.reads bufferSize
  rw [h] at hreads
  cases hreads with
  | nothing unasked => cases unasked
  | heldBack asked held =>
    rw [hpushback] at held
    cases held
  | atEnd asked free spent =>
    rw [hleft] at spent
    cases spent
    exact ⟨hpushback, hleft, Nat.le_refl 0, fun _ => rfl⟩
  | ended asked free unbounded =>
    rw [hleft] at unbounded
    cases unbounded
  | taken asked free inside met nonempty fits within =>
    exact ⟨hpushback, by simp [hleft], within left hleft, fun hnil => absurd hnil nonempty⟩

theorem readToEnd.length_of_go {r r' : FrameReader} {left : Nat} {acc body : Bytes}
    (hpushback : r.pushback = none) (hleft : r.remaining = some left)
    (h : go acc r = ((.ok (), body), r')) : body.length = acc.length + left := by
  fun_induction go generalizing left with
  | case1 => cases h
  | case2 acc r last hread =>
    cases h
    obtain ⟨-, -, -, hend⟩ := of_read hpushback hleft hread
    rw [hend rfl, Nat.add_zero]
  | case3 acc r b taken next hread hless ih =>
    obtain ⟨hnext, hrest, htaken, -⟩ := of_read hpushback hleft hread
    rw [ih hnext hrest h, List.length_append]
    omega

theorem length_of_readBody {r r' : FrameReader} {left : Nat} {body : Bytes}
    (hpushback : r.pushback = none) (hleft : r.remaining = some left)
    (h : r.readBody = (.ok body, r')) : body.length = left := by
  unfold readBody at h
  rw [hleft] at h
  split at h
  . cases h
  split at h
  . next hread =>
    cases h
    simpa using readToEnd.length_of_go hpushback hleft hread
  . cases h
  . cases h

end FrameReader

namespace FrameWriter

open FrameReader (Stands)

theorem writeMessage_of_invalidKey? {w : FrameWriter} (husable : w.poisoned = false)
    {headers : Headers} {key : String} (h : invalidKey? headers = some key) (body : Source)
    : w.writeMessage headers body = (.error (.invalidHeader key), w) := by
  unfold writeMessage
  rw [husable, h]
  rfl

/--
Bytes that read as one frame, in chunks of any size and whatever follows them: the reader gets its
head and its body, and is at its end.
-/
def ReadsAs (frame : Bytes) (header : FrameHeader) (body : Bytes) : Prop :=
  ∀ (chunks : List Bytes) (more : Bytes) (max : Nat), chunks.flatten = frame ++ more →
    body.length ≤ max → ∃ within behind,
      FrameReader.nextMessage { source := chunks.map .data, maxMessageSize := max }
        = (.ok header, within) ∧
      within.readBody = (.ok body, behind) ∧ Stands max more 0 behind

theorem readsAs_of_settled {headers : Headers} (hsettled : headers.Settled)
    (hvalid : invalidKey? headers = none) {body : Bytes}
    (hlength : headers.contentLength? = some body.length)
    : ReadsAs (head headers ++ body) ⟨headers, some body.length⟩ body := by
  intro chunks more max hchunks hmax
  have hstands : Stands max (head headers ++ (body ++ more)) 0
      { source := chunks.map .data, maxMessageSize := max } := by
    refine ⟨.ofChunks chunks, ?_, rfl, rfl, rfl⟩
    rw [Source.bytes_ofChunks, hchunks, List.append_assoc]
  obtain ⟨rest, hrest, hbytes, hread⟩ := hstands.readHeaders_head hvalid hsettled.named
  rw [hsettled.received_eq] at hread
  have hnext := Stream.nextMessage_of_readHeaders hstands hread hlength hmax
  have hwithin : Stands max (body ++ more) body.length
      { source := rest, maxMessageSize := max, remaining := some body.length } :=
    ⟨hrest, hbytes, rfl, rfl, rfl⟩
  obtain ⟨behind, hwhole, hbehind⟩ := hwithin.readBody_whole
  exact ⟨_, behind, hnext, hwhole, hbehind⟩

theorem Submission.content_of_length {headers : Headers} {source : Source}
    (hlength : headers.contentLength? = some source.bytes.length)
    : (Submission.frame headers source).content = source.bytes := by
  change source.upTo headers.contentLength? = source.bytes
  rw [hlength, Source.upTo, List.take_length]

theorem writeMessage_of_length {w : FrameWriter} (husable : w.poisoned = false)
    (hpolicy : w.sink.policy.Reliable) {headers : Headers} (hvalid : invalidKey? headers = none)
    {source : Source} (hsource : source.Faultless)
    (hlength : headers.contentLength? = some source.bytes.length)
    : ∃ w', w.writeMessage headers source = (.ok (), w') ∧
        w'.sink.accepted = w.sink.accepted ++ (head headers ++ source.bytes) := by
  have hcontent := Submission.content_of_length hlength
  have hwhole : (Submission.frame headers source).IsWhole := by
    intro n hn
    rw [hcontent]
    exact Option.some.inj (hlength.symm.trans hn)
  have hencoding : (Submission.frame headers source).encoding = head headers ++ source.bytes := by
    rw [Submission.encoding, hcontent, ← head_eq]
    rfl
  obtain ⟨w', hwrite, -, htook⟩ :=
    submit_of_reliable (s := .frame headers source) husable hpolicy hvalid hsource hwhole
  rw [hencoding] at htook
  exact ⟨w', hwrite, htook.accepted⟩

/--
A frame that was read of any stream, written to a stream that never fails. If there is no carriage
return in its headers then it is written, and what is written reads as the same frame. If there is
one, which a reader keeps wherever it is not at the end of a line or of a text, then the writer
refuses the frame for such a header and stays as it was.
-/
theorem relayed {r within behind : FrameReader} {header : FrameHeader} {n : Nat} {body : Bytes}
    (hnext : r.nextMessage = (.ok header, within)) (hlength : header.contentLength = some n)
    (hbody : within.readBody = (.ok body, behind)) {w : FrameWriter}
    (husable : w.poisoned = false) (hpolicy : w.sink.policy.Reliable) {source : Source}
    (hsource : source.Faultless) (hbytes : source.bytes = body)
    : body.length = n ∧ n ≤ r.maxMessageSize ∧
        (header.headers.FreeOfReturns → ∃ w' frame,
          w.writeMessage header.headers source = (.ok (), w') ∧
          w'.sink.accepted = w.sink.accepted ++ frame ∧ ReadsAs frame header body) ∧
        (¬header.headers.FreeOfReturns → ∃ key value, (key, value) ∈ header.headers.entries ∧
          ('\r' ∈ key.toList ∨ '\r' ∈ value.toList) ∧
          w.writeMessage header.headers source = (.error (.invalidHeader key), w)) := by
  have hentered := FrameReader.entered_of_nextMessage hnext
  have hwhole : body.length = n :=
    FrameReader.length_of_readBody hentered.pushback (hentered.remaining.trans hlength) hbody
  obtain ⟨hvalid, hrefused⟩ := invalidKey?_of_settled hentered.settled
  refine ⟨hwhole, hentered.fits n hlength, ?_, ?_⟩
  . intro hfree
    subst hbytes hwhole
    have hn : header.headers.contentLength? = some source.bytes.length :=
      hentered.length.trans hlength
    obtain ⟨w', hwrite, haccepted⟩ :=
      writeMessage_of_length husable hpolicy (hvalid hfree) hsource hn
    have hreads := readsAs_of_settled hentered.settled (hvalid hfree) hn
    rw [← hlength] at hreads
    exact ⟨w', _, hwrite, haccepted, hreads⟩
  . intro hreturns
    obtain ⟨key, value, hmem, hreturn, hkey⟩ := hrefused hreturns
    exact ⟨key, value, hmem, hreturn, writeMessage_of_invalidKey? husable hkey source⟩

theorem exists_frame (r : FrameReader) (entries : List (String × String)) (length : Option Nat)
    (body : Bytes)
    (hhead : (r.nextMessage.1.toOption.map fun header =>
      (header.headers.entries, header.contentLength)) = some (entries, length))
    (hbody : r.nextMessage.2.readBody.1.toOption = some body)
    : ∃ header within behind, r.nextMessage = (.ok header, within) ∧
        header.headers.entries = entries ∧ header.contentLength = length ∧
        within.readBody = (.ok body, behind) := by
  obtain ⟨header, hnext, hentries, hlength⟩ := FrameReader.exists_head r entries length hhead
  exact ⟨header, _, _, hnext, hentries, hlength, FrameReader.eq_of_toOption hbody⟩

theorem slowly_reliable : slowly.Reliable :=
  ⟨fun _ _ _ _ => ⟨6, rfl⟩, fun _ => rfl⟩

def lenient : FrameReader :=
  { source := ["trace:  a : b \x0aContent-Length: 9\x0d\x0aconte",
      "nt-length:+2\x0d\x0a\x0d\x0ahi!"].map fun text => .data (Text.Utf8.encode text) }

theorem relayed_of_lenient
    : ∃ header within behind w frame, lenient.nextMessage = (.ok header, within) ∧
        header.headers.entries = [("Content-Length", "+2"), ("Trace", "a : b")] ∧
        within.readBody = (.ok (Text.Utf8.encode "hi"), behind) ∧
        (onto slowly).writeMessage header.headers (.ofBytes (Text.Utf8.encode "hi")) = (.ok (), w) ∧
        w.sink.accepted = frame ∧ ReadsAs frame header (Text.Utf8.encode "hi") := by
  obtain ⟨header, within, behind, hnext, hentries, hlength, hbody⟩ :=
    exists_frame lenient [("Content-Length", "+2"), ("Trace", "a : b")] (some 2)
      (Text.Utf8.encode "hi") (by decide +kernel) (by decide +kernel)
  have hfree : header.headers.FreeOfReturns := by
    rw [Headers.FreeOfReturns, hentries]
    decide
  obtain ⟨-, -, hrelay, -⟩ := relayed (w := onto slowly) hnext hlength hbody rfl slowly_reliable
    (.ofChunks [Text.Utf8.encode "hi"]) rfl
  obtain ⟨w, frame, hwrite, haccepted, hreads⟩ := hrelay hfree
  exact ⟨header, within, behind, w, frame, hnext, hentries, hbody, hwrite, haccepted, hreads⟩

def returnInside : FrameReader :=
  { source := .ofBytes
      (Text.Utf8.encode "Content-Length: 1\x0d\x0aTrace: a\x0db\x0d\x0a\x0d\x0az") }

theorem refused_of_returnInside
    : ∃ header within behind, returnInside.nextMessage = (.ok header, within) ∧
        header.contentLength = some 1 ∧ within.readBody = (.ok (Text.Utf8.encode "z"), behind) ∧
        slowly.Reliable ∧
        (onto slowly).writeMessage header.headers (.ofBytes (Text.Utf8.encode "z"))
          = (.error (.invalidHeader "Trace"), onto slowly) := by
  obtain ⟨header, within, behind, hnext, hentries, hlength, hbody⟩ :=
    exists_frame returnInside [("Content-Length", "1"), ("Trace", "a\x0db")] (some 1)
      (Text.Utf8.encode "z") (by decide +kernel) (by decide +kernel)
  have hkey : invalidKey? header.headers = some "Trace" := by
    rw [invalidKey?, hentries]
    decide
  exact ⟨header, within, behind, hnext, hlength, hbody, slowly_reliable,
    writeMessage_of_invalidKey? rfl hkey _⟩

end FrameWriter

end JsonRpc
