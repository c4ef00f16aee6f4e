import JsonRpc.Proofs.Text.Utf8
import JsonRpc.Proofs.Transport.Sink
import JsonRpc.Transport.FrameWriter

/-!
What a writer of frames leaves in the stream below: whole frames for the submissions that it
answers without an error and, behind them, at most a part of the first one that failed.
-/

namespace JsonRpc.FrameWriter

abbrev Answer := Except TransportError Unit

def Answer.cause? : Answer → Option TransportError
  | .ok () => none
  | .error cause => some cause

def Answer.IsRefusal (answer : Answer) : Prop :=
  ∃ key, answer = .error (.invalidHeader key)

def Answer.IsHarmless (answer : Answer) : Prop :=
  answer = .ok () ∨ answer.IsRefusal

inductive Submission where
  | frame (headers : Headers) (body : Source)
  | message (body : Bytes)

namespace Submission

def headers : Submission → Headers
  | .frame headers _ => headers
  | .message body => Headers.empty.setContentLength body.length

def body : Submission → Source
  | .frame _ body => body
  | .message body => .ofBytes body

def head (s : Submission) : String :=
  String.join (s.headers.entries.map fun e => e.1 ++ ": " ++ e.2 ++ "\x0d\x0a") ++ "\x0d\x0a"

/-- What of the body belongs to the frame: the declared number of bytes, or else all of them. -/
def content (s : Submission) : Bytes :=
  s.body.upTo s.headers.contentLength?

def encoding (s : Submission) : Bytes :=
  Text.Utf8.encode s.head ++ s.content

def IsWhole (s : Submission) : Prop :=
  ∀ n, s.headers.contentLength? = some n → s.content.length = n

end Submission

def submit (w : FrameWriter) : Submission → Answer × FrameWriter
  | .frame headers body => w.writeMessage headers body
  | .message body => w.send body

def submitAll (w : FrameWriter) : List Submission → List Answer × FrameWriter
  | [] => ([], w)
  | s :: rest => ((w.submit s).1 :: ((w.submit s).2.submitAll rest).1,
      ((w.submit s).2.submitAll rest).2)

def encodings : List Submission → List Answer → Bytes
  | s :: rest, .ok () :: answers => s.encoding ++ encodings rest answers
  | _ :: rest, .error _ :: answers => encodings rest answers
  | _, _ => []

theorem submit_eq (w : FrameWriter) (s : Submission)
    : w.submit s = w.writeMessage s.headers s.body := by
  cases s <;> rfl

theorem encode_join (texts : List String)
    : Text.Utf8.encode (String.join texts) = texts.flatMap Text.Utf8.encode := by
  induction texts with
  | nil => rfl
  | cons text texts ih => rw [String.join_cons, Text.Utf8.encode_append, ih, List.flatMap_cons]

theorem head_eq (s : Submission) : head s.headers = Text.Utf8.encode s.head := by
  unfold head Submission.head lineEnd
  rw [Text.Utf8.encode_append, encode_join, List.flatMap_map]

inductive Outcome (w : FrameWriter) (s : Submission) : Answer → FrameWriter → Prop where
  | poisoned (hpoisoned : w.poisoned) : Outcome w s (.error .writerPoisoned) w
  | refused (key : String) (husable : w.poisoned = false) :
    Outcome w s (.error (.invalidHeader key)) w
  | written (w' : FrameWriter) (husable : w.poisoned = false) (hkept : w'.poisoned = false)
    (hwhole : s.IsWhole) (htook : w.sink.Took s.encoding w'.sink) :
    Outcome w s (.ok ()) w'
  | broken (w' : FrameWriter) (cause : TransportError) (part : Bytes)
    (husable : w.poisoned = false) (hpoisoned : w'.poisoned)
    (hcause : ∀ key, cause ≠ .invalidHeader key)
    (hpart : part <+: s.encoding) (htook : w.sink.Took part w'.sink) :
    Outcome w s (.error cause) w'

theorem Submission.isWhole_of_le {s : Submission}
    (h : s.headers.contentLength?.getD s.content.length ≤ s.content.length) : s.IsWhole := by
  intro n hn
  have hle : s.content.length ≤ n := by
    unfold content
    rw [hn]
    apply List.length_take_le
  rw [hn, Option.getD_some] at h
  omega

theorem writeFrame_took (sink : Sink) (s : Submission)
    : ∃ part, part <+: s.encoding ∧ sink.Took part (writeFrame sink s.headers s.body).2 ∧
        ((writeFrame sink s.headers s.body).1 = .ok () → part = s.encoding ∧ s.IsWhole) ∧
        ∀ key, (writeFrame sink s.headers s.body).1 ≠ .error (.invalidHeader key) := by
  unfold writeFrame
  obtain ⟨head, hhead, hwroteHead, hallHead⟩ := Sink.took_writeAll headStuck sink (head s.headers)
  rw [head_eq] at *
  split
  . next cause afterHead hwrite =>
    rw [hwrite] at hwroteHead
    exact ⟨head, hhead.trans (List.prefix_append _ _), hwroteHead, by simp, by simp⟩
  . next afterHead hwrite =>
    rw [hwrite] at hwroteHead hallHead
    obtain rfl := hallHead rfl
    obtain ⟨body, hbody, hwroteBody, hallBody⟩ :=
      Sink.took_copy afterHead s.body s.headers.contentLength?
    have hpart : Text.Utf8.encode s.head ++ body <+: s.encoding :=
      (List.prefix_append_right_inj _).2 hbody
    dsimp only
    split
    . next cause afterBody hcopy =>
      rw [hcopy] at hwroteBody
      exact ⟨_, hpart, hwroteHead.trans hwroteBody, by simp, by simp⟩
    . next written afterBody hcopy =>
      rw [hcopy] at hwroteBody hallBody
      obtain ⟨rfl, rfl⟩ := hallBody written rfl
      have hwrote := hwroteHead.trans hwroteBody
      split
      . exact ⟨_, hpart, hwrote, by simp, by simp⟩
      . next hlong =>
        have hflushed := hwrote.trans (Sink.took_flush afterBody)
        rw [List.append_nil] at hflushed
        split
        . next cause afterFlush hflush =>
          rw [hflush] at hflushed
          exact ⟨_, hpart, hflushed, by simp, by simp⟩
        . next afterFlush hflush =>
          rw [hflush] at hflushed
          have hwhole := Submission.isWhole_of_le (Nat.not_lt.1 hlong)
          exact ⟨_, hpart, hflushed, fun _ => ⟨rfl, hwhole⟩, by simp⟩

theorem submit_outcome (w : FrameWriter) (s : Submission)
    : Outcome w s (w.submit s).1 (w.submit s).2 := by
  rw [submit_eq]
  unfold writeMessage
  split
  . next hpoisoned => exact .poisoned hpoisoned
  . next husable =>
    rw [Bool.not_eq_true] at husable
    split
    . next key hkey => exact .refused key husable
    . obtain ⟨part, hpart, htook, hall, hcause⟩ := writeFrame_took w.sink s
      split
      . next sink hwrite =>
        rw [hwrite] at htook hall
        obtain ⟨rfl, hwhole⟩ := hall rfl
        exact .written _ husable husable hwhole htook
      . next cause sink hwrite =>
        rw [hwrite] at htook hcause
        apply Outcome.broken _ cause part husable rfl _ hpart htook
        intro key heq
        exact hcause key (by rw [heq])

theorem submit_of_poisoned {w : FrameWriter} (h : w.poisoned) (s : Submission)
    : w.submit s = (.error .writerPoisoned, w) := by
  rw [submit_eq]
  unfold writeMessage
  rw [if_pos h]

theorem submitAll_of_poisoned {w : FrameWriter} (h : w.poisoned) (submissions : List Submission)
    : w.submitAll submissions
        =
      (List.replicate submissions.length (.error .writerPoisoned), w) := by
  induction submissions with
  | nil => rfl
  | cons s rest ih =>
    rw [submitAll, submit_of_poisoned h, ih]
    rfl

theorem submitAll_append (w : FrameWriter) (first second : List Submission)
    : w.submitAll (first ++ second)
        =
      ((w.submitAll first).1 ++ ((w.submitAll first).2.submitAll second).1,
        ((w.submitAll first).2.submitAll second).2) := by
  induction first generalizing w with
  | nil => rfl
  | cons s first ih =>
    rw [List.cons_append, submitAll, ih]
    rfl

theorem length_submitAll (w : FrameWriter) (submissions : List Submission)
    : (w.submitAll submissions).1.length = submissions.length := by
  induction submissions generalizing w with
  | nil => rfl
  | cons s rest ih =>
    rw [submitAll, List.length_cons, List.length_cons, ih]

theorem isWhole_of_mem_zip {w : FrameWriter} {submissions : List Submission} {s : Submission}
    (h : (s, .ok ()) ∈ submissions.zip (w.submitAll submissions).1) : s.IsWhole := by
  induction submissions generalizing w with
  | nil => cases h
  | cons first rest ih =>
    rw [submitAll, List.zip_cons_cons] at h
    rcases List.mem_cons.1 h with heq | hrest
    . obtain ⟨rfl, hanswer⟩ := Prod.mk.inj heq
      have houtcome := submit_outcome w s
      rw [← hanswer] at houtcome
      cases houtcome with
      | written _ _ _ hwhole => exact hwhole
    . exact ih hrest

theorem took_of_harmless {w : FrameWriter} (husable : w.poisoned = false)
    {submissions : List Submission}
    (h : ∀ answer ∈ (w.submitAll submissions).1, answer.IsHarmless)
    : (w.submitAll submissions).2.poisoned = false ∧
        w.sink.Took (encodings submissions (w.submitAll submissions).1)
          (w.submitAll submissions).2.sink := by
  induction submissions generalizing w with
  | nil => exact ⟨husable, .nothing rfl rfl⟩
  | cons s rest ih =>
    rw [submitAll] at *
    have hfirst := h _ List.mem_cons_self
    have hrest := fun answer hanswer => h answer (List.mem_cons_of_mem _ hanswer)
    dsimp only at hfirst hrest ⊢
    have houtcome := submit_outcome w s
    generalize w.submit s = result at *
    obtain ⟨answer, w'⟩ := result
    dsimp only at *
    cases houtcome with
    | poisoned hpoisoned =>
      rw [husable] at hpoisoned
      cases hpoisoned
    | refused key => exact ih husable hrest
    | written _ _ hkept hwhole htook =>
      obtain ⟨hstill, hmore⟩ := ih hkept hrest
      exact ⟨hstill, htook.trans hmore⟩
    | broken _ cause part _ _ hcause =>
      rcases hfirst with hok | ⟨key, hkey⟩
      . cases hok
      . exact absurd (Except.error.inj hkey) (hcause key)

theorem exists_first_break (w : FrameWriter) (submissions : List Submission)
    : (∀ answer ∈ (w.submitAll submissions).1, answer.IsHarmless) ∨
        ∃ before s after, submissions = before ++ s :: after ∧
          (∀ answer ∈ (w.submitAll before).1, answer.IsHarmless) ∧
          ¬ ((w.submitAll before).2.submit s).1.IsHarmless := by
  induction submissions generalizing w with
  | nil => exact .inl (by simp [submitAll])
  | cons s rest ih =>
    by_cases hs : (w.submit s).1.IsHarmless
    . rcases ih (w.submit s).2 with hall | ⟨before, broken, after, rfl, hbefore, hbroken⟩
      . left
        rw [submitAll]
        exact List.forall_mem_cons.2 ⟨hs, hall⟩
      . right
        refine ⟨s :: before, broken, after, rfl, ?_, hbroken⟩
        rw [submitAll]
        exact List.forall_mem_cons.2 ⟨hs, hbefore⟩
    . exact .inr ⟨[], s, rest, rfl, by simp [submitAll], hs⟩

theorem submitAll_of_break {w : FrameWriter} (husable : w.poisoned = false)
    {before : List Submission} {s : Submission}
    (hbefore : ∀ answer ∈ (w.submitAll before).1, answer.IsHarmless)
    (hs : ¬ ((w.submitAll before).2.submit s).1.IsHarmless) (after : List Submission)
    : ∃ cause part, (∀ key, cause ≠ .invalidHeader key) ∧ part <+: s.encoding ∧
        w.sink.Took (encodings before (w.submitAll before).1 ++ part)
          (w.submitAll (before ++ [s])).2.sink ∧
        w.submitAll (before ++ s :: after)
          =
        ((w.submitAll before).1 ++
            .error cause :: List.replicate after.length (.error .writerPoisoned),
          (w.submitAll (before ++ [s])).2) := by
  obtain ⟨hkept, htook⟩ := took_of_harmless husable hbefore
  have houtcome := submit_outcome (w.submitAll before).2 s
  simp only [submitAll_append, submitAll]
  generalize (w.submitAll before).2.submit s = result at *
  obtain ⟨answer, broken⟩ := result
  dsimp only at *
  cases houtcome with
  | poisoned hpoisoned =>
    rw [hkept] at hpoisoned
    cases hpoisoned
  | refused key => exact absurd (.inr ⟨key, rfl⟩) hs
  | written => exact absurd (.inl rfl) hs
  | broken _ cause part _ hpoisoned hcause hpart hmore =>
    rw [submitAll_of_poisoned hpoisoned]
    exact ⟨cause, part, hcause, hpart, htook.trans hmore, rfl⟩

theorem eq_of_isRefusal {w : FrameWriter} {s : Submission} (h : (w.submit s).1.IsRefusal)
    : (w.submit s).2 = w := by
  obtain ⟨key, hkey⟩ := h
  have houtcome := submit_outcome w s
  rw [hkey] at houtcome
  generalize (w.submit s).2 = w' at houtcome
  cases houtcome with
  | refused => rfl
  | broken _ _ _ _ _ hcause => exact absurd rfl (hcause key)

def onto (policy : Sink.Policy) : FrameWriter :=
  { sink := { policy } }

/--
What a stream has accepted of a run of submissions are the frames of those that were answered
without an error, in order, and behind them at most a part of the first one that failed. From that
one on the writer refuses everything and writes nothing. A submission whose headers are refused
leaves the writer as it was, and one that is answered without an error was written with as many
bytes as it declared.
-/
theorem accepted_of_submitAll {policy : Sink.Policy} {submissions : List Submission}
    {answers : List Answer} {w : FrameWriter}
    (h : (onto policy).submitAll submissions = (answers, w))
    : answers.length = submissions.length ∧
      (∀ s, (s, .ok ()) ∈ submissions.zip answers → s.IsWhole) ∧
      (∀ (w : FrameWriter) s, (w.submit s).1.IsRefusal → (w.submit s).2 = w) ∧
      ((∀ answer ∈ answers, answer.IsHarmless) ∧ w.poisoned = false ∧
          w.sink.accepted = encodings submissions answers
        ∨ ∃ before s after answered cause part, submissions = before ++ s :: after ∧
          answers = answered ++
            .error cause :: List.replicate after.length (.error .writerPoisoned) ∧
          answered.length = before.length ∧ (∀ answer ∈ answered, answer.IsHarmless) ∧
          (∀ key, cause ≠ .invalidHeader key) ∧ part <+: s.encoding ∧
          w.sink.accepted = encodings before answered ++ part ∧
          w = ((onto policy).submitAll (before ++ [s])).2) := by
  have hanswers : ((onto policy).submitAll submissions).1 = answers := by rw [h]
  have hwriter : ((onto policy).submitAll submissions).2 = w := by rw [h]
  refine ⟨?_, ?_, fun w s => eq_of_isRefusal, ?_⟩
  . rw [← hanswers]
    apply length_submitAll
  . intro s hs
    rw [← hanswers] at hs
    exact isWhole_of_mem_zip hs
  . rcases exists_first_break (onto policy) submissions with
      hall | ⟨before, s, after, rfl, hbefore, hs⟩
    . left
      obtain ⟨husable, htook⟩ := took_of_harmless rfl hall
      rw [hanswers, hwriter] at *
      exact ⟨hall, husable, htook.accepted⟩
    . right
      obtain ⟨cause, part, hcause, hpart, htook, hbroken⟩ :=
        submitAll_of_break rfl hbefore hs after
      rw [h] at hbroken
      obtain ⟨rfl, rfl⟩ := Prod.mk.inj hbroken
      exact ⟨before, s, after, _, cause, part, rfl, rfl, length_submitAll _ _, hbefore, hcause,
        hpart, htook.accepted, rfl⟩

def brokenRun : List Submission :=
  [.frame (Headers.empty.insert "X-Evil" "a\x0d\x0ab") (.ofBytes []),
    .message (Text.Utf8.encode "ab"),
    .frame (Headers.empty.setContentLength 10) (.ofBytes (Text.Utf8.encode "abc")),
    .message (Text.Utf8.encode "next")]

def slowly : Sink.Policy :=
  { write := fun _ _ _ => .ok 7 }

theorem accepted_of_brokenRun
    : ∃ answers w, (onto slowly).submitAll brokenRun = (answers, w) ∧
        answers.map Answer.cause?
          = [some (.invalidHeader "X-Evil"), none, some (.shortWrite 10 3), some .writerPoisoned] ∧
        w.sink.accepted = Text.Utf8.encode
          "Content-Length: 2\x0d\x0a\x0d\x0aabContent-Length: 10\x0d\x0a\x0d\x0aabc" ∧
        ∃ before s after answered part, brokenRun = before ++ s :: after ∧
          part <+: s.encoding ∧ w.sink.accepted = encodings before answered ++ part := by
  obtain ⟨answers, w, hrun, hcauses, haccepted⟩ : ∃ answers w,
      (onto slowly).submitAll brokenRun = (answers, w) ∧
      answers.map Answer.cause?
        = [some (.invalidHeader "X-Evil"), none, some (.shortWrite 10 3), some .writerPoisoned] ∧
      w.sink.accepted = Text.Utf8.encode
        "Content-Length: 2\x0d\x0a\x0d\x0aabContent-Length: 10\x0d\x0a\x0d\x0aabc" := by
    refine ⟨_, _, rfl, ?_, ?_⟩ <;> decide +kernel
  obtain ⟨-, -, -, hend⟩ := accepted_of_submitAll hrun
  rcases hend with
    ⟨hall, -⟩ | ⟨before, s, after, answered, cause, part, hsplit, -, -, -, -, hpart, htaken, -⟩
  . have hmem : some (.shortWrite 10 3) ∈ answers.map Answer.cause? := by simp [hcauses]
    obtain ⟨answer, hanswer, hcause⟩ := List.mem_map.1 hmem
    rcases hall answer hanswer with rfl | ⟨key, rfl⟩
    . cases hcause
    . cases hcause
  . exact ⟨answers, w, hrun, hcauses, haccepted, before, s, after, answered, part, hsplit, hpart,
      htaken⟩

end JsonRpc.FrameWriter
