import JsonRpc.Proofs.Transport.Frame
import JsonRpc.Proofs.Transport.Progress
import JsonRpc.Proofs.Transport.Writing

/-!
Messages that are written one after another and read back from a part of the stream, wherever it
is cut off.
-/

namespace JsonRpc

namespace FrameWriter

theorem isWritable_decimal (n : Nat) : isWritable contentLengthKey (Text.decimal n) = true := by
  have hkey : (!contentLengthKey.isEmpty &&
      !contentLengthKey.toList.any (fun c => c = ':' || breaksLine c)) = true := by
    decide
  have hvalue : (Text.decimal n).toList.any breaksLine = false := by
    rw [List.any_eq_false, Text.decimal, String.toList_ofList]
    intro c hc
    rw [Bool.not_eq_true]
    exact (Text.digit_plain hc).2
  unfold isWritable
  rw [hkey, hvalue]
  rfl

theorem invalidKey?_setContentLength (n : Nat)
    : invalidKey? (Headers.empty.setContentLength n) = none := by
  unfold invalidKey?
  rw [Headers.entries_setContentLength]
  simp [isWritable_decimal]

theorem content_message {message : Bytes} (h : message.length < Headers.lengthBound)
    : (Submission.message message).content = message := by
  have hbytes : (Source.ofBytes message).bytes = message := by
    simp [Source.ofBytes, Source.bytes]
  unfold Submission.content Submission.headers Submission.body
  rw [Headers.contentLength?_setContentLength _ h]
  simp [Source.upTo, hbytes]

theorem encoding_message {message : Bytes} (h : message.length < Headers.lengthBound)
    : (Submission.message message).encoding = Stream.frame message := by
  unfold Submission.encoding
  rw [content_message h, ← head_eq]
  rfl

theorem isWhole_message {message : Bytes} (h : message.length < Headers.lengthBound)
    : (Submission.message message).IsWhole := by
  intro n hn
  unfold Submission.headers at hn
  rw [Headers.contentLength?_setContentLength _ h] at hn
  rw [content_message h]
  exact Option.some.inj hn

theorem writeFrame_of_reliable {sink : Sink} (h : sink.policy.Reliable) {s : Submission}
    (hbody : s.body.Faultless) (hwhole : s.IsWhole)
    : (writeFrame sink s.headers s.body).1 = .ok () := by
  obtain ⟨_, -, htookHead, -⟩ := Sink.took_writeAll headStuck sink (head s.headers)
  have hhead := Sink.writeAll_of_reliable h headStuck (head s.headers)
  unfold writeFrame
  generalize sink.writeAll headStuck (head s.headers) = result at *
  obtain ⟨answer, afterHead⟩ := result
  subst hhead
  have hafterHead : afterHead.policy.Reliable := by
    rw [htookHead.policy]
    exact h
  obtain ⟨_, -, htookBody, hcount⟩ := Sink.took_copy afterHead s.body s.headers.contentLength?
  obtain ⟨written, hbody⟩ := Sink.copy_of_reliable hafterHead hbody s.headers.contentLength?
  dsimp only
  generalize afterHead.copy s.body s.headers.contentLength? = result at *
  obtain ⟨answer, afterBody⟩ := result
  subst hbody
  have hafterBody : afterBody.policy.Reliable := by
    rw [htookBody.policy]
    exact hafterHead
  have hflush := Sink.flush_of_reliable hafterBody
  have hlong : ¬ written < s.headers.contentLength?.getD written := by
    obtain ⟨hcontent, hlength⟩ := hcount written rfl
    cases hdeclared : s.headers.contentLength? with
    | none => simp
    | some n =>
      have := hwhole n hdeclared
      rw [Submission.content, ← hcontent, ← hlength] at this
      simp [this]
  dsimp only
  rw [if_neg hlong]
  generalize afterBody.flush = result at *
  obtain ⟨answer, afterFlush⟩ := result
  subst hflush
  rfl

theorem submit_of_reliable {w : FrameWriter} (husable : w.poisoned = false)
    (h : w.sink.policy.Reliable) {s : Submission} (hheaders : invalidKey? s.headers = none)
    (hbody : s.body.Faultless) (hwhole : s.IsWhole)
    : ∃ w', w.submit s = (.ok (), w') ∧ w'.poisoned = false ∧
        w.sink.Took s.encoding w'.sink := by
  have hwrite := writeFrame_of_reliable h hbody hwhole
  have hok : (w.submit s).1 = .ok () := by
    rw [submit_eq]
    unfold writeMessage
    rw [husable, hheaders]
    generalize writeFrame w.sink s.headers s.body = result at *
    obtain ⟨answer, sink⟩ := result
    subst hwrite
    rfl
  have houtcome := submit_outcome w s
  generalize w.submit s = result at *
  obtain ⟨answer, w'⟩ := result
  subst hok
  cases houtcome with
  | written _ _ hkept _ htook => exact ⟨w', rfl, hkept, htook⟩

end FrameWriter

namespace Stream

open FrameReader (Stands)
open FrameWriter (Answer onto)

theorem writeMessage_of_reliable {w : FrameWriter} (husable : w.poisoned = false)
    (h : w.sink.policy.Reliable) {message : Bytes} (hlength : message.length < Headers.lengthBound)
    : ∃ w', writeMessage w message = (.ok (), w') ∧ w'.poisoned = false ∧
        w.sink.Took (frame message) w'.sink := by
  rw [← FrameWriter.encoding_message hlength]
  exact FrameWriter.submit_of_reliable (s := .message message) husable h
    (FrameWriter.invalidKey?_setContentLength _) (.ofChunks [message])
    (FrameWriter.isWhole_message hlength)

def writeAll (w : FrameWriter) : List Bytes → List Answer × FrameWriter
  | [] => ([], w)
  | message :: rest =>
    let (answer, w) := writeMessage w message
    let (answers, w) := writeAll w rest
    (answer :: answers, w)

theorem writeAll_of_reliable {w : FrameWriter} (husable : w.poisoned = false)
    (h : w.sink.policy.Reliable) {messages : List Bytes}
    (hlengths : ∀ message ∈ messages, message.length < Headers.lengthBound)
    : (∀ answer ∈ (writeAll w messages).1, answer = .ok ()) ∧
        w.sink.Took (messages.flatMap frame) (writeAll w messages).2.sink := by
  induction messages generalizing w with
  | nil => exact ⟨by simp [writeAll], .nothing rfl rfl⟩
  | cons message rest ih =>
    obtain ⟨hlength, hrest⟩ := List.forall_mem_cons.1 hlengths
    obtain ⟨w', hwrite, hkept, htook⟩ := writeMessage_of_reliable husable h hlength
    have hreliable : w'.sink.policy.Reliable := by
      rw [htook.policy]
      exact h
    obtain ⟨hanswers, htookRest⟩ := ih hkept hreliable hrest
    rw [writeAll, hwrite]
    exact ⟨List.forall_mem_cons.2 ⟨rfl, hanswers⟩, htook.trans htookRest⟩

end Stream

end JsonRpc
