import JsonRpc.Client.Call
import JsonRpc.Proofs.Client.Sending
import JsonRpc.Proofs.Envelope.RoundTrip
import JsonRpc.Proofs.Link.CrossTalk

/-!
What a server makes of the requests that a client lets through. The client looks at the parameters
alone; the server refuses a request without a method besides, and its refusal reaches no caller.
-/

namespace JsonRpc

namespace Request

def idOf : Option Int64 → Id
  | none => .null
  | some id => .text (WireId.format id)

def underNumber (r : Request) : Option Int64 → Request
  | none => r
  | some id => r.numbered id

def Accepted (r : Request) (id : Option Int64) (message : Bytes) : Prop :=
  decode message = .ok { r with id := idOf id, extra := foreignMembers r.extra }

def unnamed : ProtocolError :=
  .invalidMessage "method must be a non-empty string"

theorem Faithful.underNumber {r : Request} (h : r.Faithful) (id : Option Int64)
    : (r.underNumber id).Faithful := by
  cases id with
  | none => exact h
  | some id => exact ⟨h.params, h.extra, h.ascending⟩

theorem decode_encode_of_unnamed {r : Request} (h : r.Faithful) (hmethod : r.method = "")
    : decode r.encode = .error unnamed := by
  rw [decode_encode h, hmethod]
  rfl

theorem decode_underNumber {r : Request} (h : r.Faithful) (hparams : r.hasValidParams)
    {id : Option Int64} (hid : id = none ↔ r.notification)
    : decode (r.underNumber id).encode
        =
      if r.method = "" then .error unnamed
      else .ok { r with id := idOf id, extra := foreignMembers r.extra } := by
  have hmethod : (r.underNumber id).method = r.method := by cases id <;> rfl
  have hvalid : (r.underNumber id).hasValidParams := by cases id <;> exact hparams
  split
  . next hempty => exact decode_encode_of_unnamed (h.underNumber id) (hmethod.trans hempty)
  . next hnamed =>
    rw [decode_encode_of_valid (h.underNumber id) (hmethod ▸ hnamed) hvalid]
    cases id with
    | none => simp [underNumber, idOf, hid.1 rfl]
    | some id =>
      have hcall : r.notification = false := by simpa using hid
      simp [underNumber, numbered, idOf, hcall]

theorem accepted_iff {r : Request} (h : r.Faithful) (hparams : r.hasValidParams)
    {id : Option Int64} (hid : id = none ↔ r.notification)
    : r.Accepted id (r.underNumber id).encode ↔ r.method ≠ "" := by
  unfold Accepted
  rw [decode_underNumber h hparams hid]
  by_cases hmethod : r.method = "" <;> simp [hmethod]

theorem owedId?_underNumber {r : Request} (h : r.Faithful) (hparams : r.hasValidParams)
    {id : Option Int64} (hid : id = none ↔ r.notification)
    : Server.Connection.owedId? (r.underNumber id).encode
        =
      if r.method = "" then some .null else id.map fun id => .text (WireId.format id) := by
  unfold Server.Connection.owedId?
  rw [decode_underNumber h hparams hid]
  by_cases hmethod : r.method = ""
  . simp [hmethod]
  . cases id with
    | none => simp [hmethod, hid.1 rfl]
    | some id =>
      have hcall : r.notification = false := by simpa using hid
      simp [hmethod, hcall, idOf]

end Request

namespace Client

variable {r : Request} {command : Command}

theorem valid_of_commandOf (h : commandOf r = .ok command) : r.hasValidParams := by
  unfold commandOf Request.checked at h
  split at h
  . assumption
  . cases h

theorem eq_of_commandOf (h : commandOf r = .ok command)
    : command = if r.notification then .notify r else .call r := by
  unfold commandOf Request.checked at h
  split at h
  . exact (Except.ok.inj h).symm
  . cases h

theorem request_of_commandOf (h : commandOf r = .ok command) {commands : List Command}
    {ticket : Nat} (hissued : commands[ticket]? = some command) {id : Option Int64}
    {request : Request} (hrequest : requestOf? commands ticket id = some request)
    : request = r.underNumber id ∧ (id = none ↔ r.notification) := by
  rw [eq_of_commandOf h] at hissued
  unfold requestOf? at hrequest
  cases hnotification : r.notification with
  | true =>
    simp only [hissued, hnotification, if_true] at hrequest
    cases id with
    | none => exact ⟨(Option.some.inj hrequest).symm, by simp⟩
    | some id => cases hrequest
  | false =>
    simp only [hissued, hnotification] at hrequest
    cases id with
    | none => cases hrequest
    | some id => exact ⟨(Option.some.inj hrequest).symm, by simp⟩

theorem exists_number_of_transmitted {A : Event → Prop} {c : Client} (houtbound : Outbound A c)
    (hlet : commandOf r = .ok command) {ticket : Nat} (hissued : c.commands[ticket]? = some command)
    {line : Nat} {message : Bytes} (hsent : .transmitted line ticket message ∈ c.history)
    : ∃ id, .begun line ticket id ∈ c.history ∧ (id = none ↔ r.notification) ∧
        message = (r.underNumber id).encode := by
  cases houtbound line ticket message hsent with
  | written id request hrequest hbegun hmessage =>
    obtain ⟨rfl, hid⟩ := request_of_commandOf hlet hissued hrequest
    exact ⟨id, hbegun, hid, hmessage⟩
  | borrowed hlend =>
    rw [eq_of_commandOf hlet, hlend] at hissued
    split at hissued <;> cases hissued

end Client

namespace Link

variable {handler : Request → (cancelled : Bool) → Server.HandlerOutcome}

theorem unanswered_of_unnamed {events : List Event} {l : Link} (h : Composed handler events l)
    (hnotify : ∀ request, .notify request ∈ l.client.commands → request.notification)
    (hcount : l.client.numbered.length ≤ 2 ^ 64) (hreads : l.ReadsBack events) {ticket : Nat}
    {call : Request} (hcommand : l.client.commands[ticket]? = some (.call call))
    (hmethod : call.method = "") (response : Response)
    : .replied ticket (.answered response) ∉ l.client.history := by
  intro hreplied
  have hother : call.method ≠ cancelMethod := by
    rw [hmethod]
    decide
  obtain ⟨line, index, task, htask, -, hfor, -⟩ :=
    exists_task_of_answered h hnotify hcount hreads hreplied hcommand hother
  obtain ⟨x, hline, hget⟩ := Option.bind_eq_some_iff.1 htask
  obtain ⟨tickets, -, htasks⟩ := (h.lines line x hline).exists_tickets
  obtain ⟨-, message, -, -, hstarted⟩ := htasks index task hget
  obtain ⟨own, hown, hsame, -⟩ := hfor.command
  rw [hcommand] at hown
  cases hown
  have hdecode := (Server.Connection.decode_of_started? hstarted).1
  exact Request.named_of_decode hdecode (hsame.trans hmethod)

/--
What leaves for a request that the client lets through is accepted by a server, as the request with
its own method, parameters and kind and under the number that it was given, exactly if its method is
not empty. The server then owes a call an answer under that number, and a notification none; under
an empty method it owes an answer without an identifier, and in no run is the caller answered.
-/
theorem accepted_iff_named {config : ClientConfig} {events : List Event} {l : Link}
    (h : run? handler (start config) events = some l) {r : Request} {command : Client.Command}
    (hlet : Client.commandOf r = .ok command) {ticket : Nat}
    (hissued : l.client.commands[ticket]? = some command)
    : (r.Faithful → ∀ line message, .transmitted line ticket message ∈ l.client.history →
        ∃ id, .begun line ticket id ∈ l.client.history ∧ (id = none ↔ r.notification) ∧
          (r.Accepted id message ↔ r.method ≠ "") ∧
          Server.Connection.owedId? message
            = if r.method = "" then some .null else id.map fun id => .text (WireId.format id)) ∧
      (r.notification = false → r.method = "" →
        (∀ request, .notify request ∈ l.client.commands → request.notification) →
        l.client.numbered.length ≤ 2 ^ 64 → l.ReadsBack events →
          ∀ response, .replied ticket (.answered response) ∉ l.client.history) := by
  have hcomposed := composed_of_run? h
  have hparams := Client.valid_of_commandOf hlet
  constructor
  . intro hfaithful line message hsent
    obtain ⟨id, hbegun, hid, rfl⟩ :=
      Client.exists_number_of_transmitted hcomposed.client.outbound hlet hissued hsent
    exact ⟨id, hbegun, hid, Request.accepted_iff hfaithful hparams hid,
      Request.owedId?_underNumber hfaithful hparams hid⟩
  . intro hcall hmethod hnotify hcount hreads
    rw [Client.eq_of_commandOf hlet, hcall] at hissued
    exact unanswered_of_unnamed hcomposed hnotify hcount hreads hissued hmethod

def unnamedCall : List Event :=
  [.client (.issue (.call { method := "" })), .client (.issue (.call { method := "a" })),
    .client .connects, .client .turn, .client .transmits, .client (.writeReturns true),
    .client .turn, .client .transmits, .client (.writeReturns true),
    .requestArrives 0, .respond 0 .loop true, .requestArrives 0, .finish 0 0,
    .respond 0 (.task 0) true, .responseArrives 0, .responseArrives 0,
    .client (.reads 0), .client (.reads 0), .client .turn, .client .turn]

theorem refused_of_unnamedCall
    : ∃ l message, run? knowsA (start {}) unnamedCall = some l ∧
        Client.commandOf { method := "" } = .ok (.call { method := "" }) ∧
        l.client.commands[0]? = some (.call { method := "" }) ∧
        .transmitted 0 0 message ∈ l.client.history ∧
        Request.decode message = .error Request.unnamed ∧
        Server.Connection.owedId? message = some .null ∧ l.client.reply? 0 = none := by
  have hrun : (run? knowsA (start {}) unnamedCall).map (fun l =>
      decide (l.client.commands[0]? = some (.call { method := "" }) ∧
        .transmitted 0 0 (({ method := "" } : Request).numbered 1).encode ∈ l.client.history ∧
        l.client.reply? 0 = none)) = some true := by
    decide +kernel
  have hmessage : Request.decode (({ method := "" } : Request).numbered 1).encode
      = .error Request.unnamed := by
    decide +kernel
  obtain ⟨l, hrun, hfacts⟩ := Option.map_eq_some_iff.1 hrun
  obtain ⟨hissued, hsent, hreply⟩ := of_decide_eq_true hfacts
  refine ⟨l, _, hrun, rfl, hissued, hsent, hmessage, ?_, hreply⟩
  unfold Server.Connection.owedId?
  rw [hmessage]

theorem accepted_iff_named_of_unnamedCall
    : ∃ l, run? knowsA (start {}) unnamedCall = some l ∧
        (∀ response, .replied 0 (.answered response) ∉ l.client.history) ∧
        ∃ message id, .transmitted 0 1 message ∈ l.client.history ∧
          .begun 0 1 id ∈ l.client.history ∧ Request.Accepted { method := "a" } id message ∧
          Server.Connection.owedId? message = id.map fun id => .text (WireId.format id) := by
  have hrun : (run? knowsA (start {}) unnamedCall).map (fun l =>
      (decide (l.ReadsBack unnamedCall), l.client.commands, l.client.numbered.length,
        decide (.transmitted 0 1 (({ method := "a" } : Request).numbered 2).encode
          ∈ l.client.history)))
      = some (true, [.call { method := "" }, .call { method := "a" }], 2, true) := by
    decide +kernel
  obtain ⟨l, hrun, hfacts⟩ := Option.map_eq_some_iff.1 hrun
  obtain ⟨hreads, hfacts⟩ := Prod.mk.inj hfacts
  obtain ⟨hcommands, hfacts⟩ := Prod.mk.inj hfacts
  obtain ⟨hlength, hsent⟩ := Prod.mk.inj hfacts
  have hsent := of_decide_eq_true hsent
  have hunnamed : l.client.commands[0]? = some (.call { method := "" }) := by rw [hcommands]; rfl
  have hnamed : l.client.commands[1]? = some (.call { method := "a" }) := by rw [hcommands]; rfl
  obtain ⟨-, hunanswered⟩ := accepted_iff_named hrun (r := { method := "" }) rfl hunnamed
  obtain ⟨haccepted, -⟩ := accepted_iff_named hrun (r := { method := "a" }) rfl hnamed
  have hfaithful : Request.Faithful { method := "a" } :=
    ⟨by simp, by simp [foreignMembers], List.Pairwise.nil⟩
  obtain ⟨id, hbegun, -, hiff, howed⟩ := haccepted hfaithful 0 _ hsent
  refine ⟨l, hrun, ?_, _, id, hsent, hbegun, hiff.2 (by decide), ?_⟩
  . exact hunanswered rfl rfl (by simp [hcommands]) (by omega) (of_decide_eq_true hreads)
  . simpa using howed

end Link

end JsonRpc
