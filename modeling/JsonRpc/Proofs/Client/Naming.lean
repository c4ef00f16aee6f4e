import JsonRpc.Proofs.Client.Batching
import JsonRpc.Proofs.Client.WireId

/-!
Which responses are handed to a call. Main statement: those whose identifier is any text of the
call's number, and not only those that carry the text that was sent.
-/

namespace JsonRpc.Client

theorem callOf?_eq_some_iff {id : Id} {call : Int64}
    : callOf? id = some call ↔ ∃ s, id = .text s ∧ WireId.Names s call := by
  simp only [← WireId.parse?_eq_some_iff]
  cases id with
  | text s => simp [callOf?]
  | null | int => simp [callOf?]

theorem mem_unanswered_iff {pending : List (Int64 × Nat)} {responses : List Response}
    {e : Int64 × Nat}
    : e ∈ unanswered pending responses
        ↔ e ∈ pending ∧ ∀ r ∈ responses, ∀ s, r.id = .text s → ¬WireId.Names s e.1 := by
  rw [unanswered_eq_filter, List.mem_filter]
  simp [callOf?_eq_some_iff]

theorem exists_mem_answers {pending : List (Int64 × Nat)} {responses : List Response}
    {call : Int64} {ticket : Nat} (hlookup : pending.lookup call = some ticket) {r : Response}
    (hr : r ∈ responses) (hcall : callOf? r.id = some call)
    : ∃ told, (ticket, told) ∈ answers pending responses ∧ callOf? told.id = some call := by
  obtain ⟨told, htold⟩ : ∃ told, responses.find? (fun r => callOf? r.id = some call) = some told := by
    rw [← Option.isSome_iff_exists, List.find?_isSome]
    exact ⟨r, hr, by simpa using hcall⟩
  have hmem : (ticket, told) ∈ (answers pending responses).filter
      (fun a => callOf? a.2.id = some call) := by
    rw [filter_answers, hlookup, Option.bind_some, htold]
    simp
  obtain ⟨hanswer, hnamed⟩ := List.mem_filter.1 hmem
  exact ⟨told, hanswer, by simpa using hnamed⟩

/--
A text names a call exactly if it is its hexadecimal number in any letter case, behind any number
of zeros, and the one that was sent is the plain one of them. A message tells only who waits under
a number that a response of the message names by any of its texts, and tells all of them; the
others wait on.
-/
theorem told_iff_named (c : Client) (message : Bytes) (s : String) (call : Int64)
    : (WireId.parse? s = some call ↔ WireId.Names s call) ∧
        (WireId.Names s call → (s = WireId.format call ↔ WireId.IsPlain s)) ∧
        ∃ told : List (Nat × Response),
          (c.dispatch message).history
            = (told.map fun a => .replied a.1 (.answered a.2)).reverse ++ c.history ∧
          (∀ a ∈ told, a.2 ∈ responsesOf message ∧
            ∃ number spelling, (number, a.1) ∈ c.pending ∧ a.2.id = .text spelling ∧
              WireId.Names spelling number) ∧
          (∀ ticket, c.pending.lookup call = some ticket →
            ∀ r ∈ responsesOf message, r.id = .text s → WireId.Names s call →
              ∃ r', (ticket, r') ∈ told ∧
                ∃ spelling, r'.id = .text spelling ∧ WireId.Names spelling call) ∧
          ∀ e, e ∈ (c.dispatch message).pending ↔
            e ∈ c.pending ∧ ∀ r ∈ responsesOf message, ∀ spelling,
              r.id = .text spelling → ¬WireId.Names spelling e.1 := by
  refine ⟨WireId.parse?_eq_some_iff, WireId.eq_format_iff, ?_⟩
  rw [dispatch_eq]
  refine ⟨answers c.pending (responsesOf message), rfl, ?_, ?_, fun e => mem_unanswered_iff⟩
  . intro a ha
    obtain ⟨number, hcall, hpending⟩ := exists_of_mem_answers ha
    obtain ⟨spelling, hid, hnames⟩ := callOf?_eq_some_iff.1 hcall
    exact ⟨(answers_sublist _).subset (List.mem_map_of_mem ha), number, spelling, hpending, hid,
      hnames⟩
  . intro ticket hlookup r hr hid hnames
    obtain ⟨told, htold, hnamed⟩ :=
      exists_mem_answers hlookup hr (callOf?_eq_some_iff.2 ⟨s, hid, hnames⟩)
    exact ⟨told, htold, callOf?_eq_some_iff.1 hnamed⟩

def paddedResponse : Json :=
  resultFor "01" (.bool true)

theorem responsesOf_paddedResponse
    : responsesOf paddedResponse.encode
        = [{ id := .text "01", outcome := .result (.bool true) }] := by
  have hread : Json.decode? paddedResponse.encode = some paddedResponse.sorted :=
    Json.decode?_encode (readable_resultFor (.bool true) "01")
  rw [responsesOf_single (by simp [Json.sorted, paddedResponse, resultFor]) hread]
  decide +kernel

/-- It is read as the number of a call, and the call is answered. -/
theorem told_by_padded
    : WireId.parse? "01" = some 1 ∧ (∀ call, WireId.format call ≠ "01") ∧
        (waitingClient.dispatch paddedResponse.encode).answered = [0] := by
  refine ⟨by decide +kernel, ?_, ?_⟩
  . intro call h
    have hplain := h ▸ WireId.isPlain_format call
    cases hplain.unpadded ['1'] (by decide)
  . rw [dispatch_eq, responsesOf_paddedResponse]
    decide +kernel

theorem told_iff_named_of_padded
    : WireId.Names "01" 1 ∧ "01" ≠ WireId.format 1 ∧
        waitingClient.pending.lookup 1 = some 0 ∧
        ∃ told : List (Nat × Response),
          (waitingClient.dispatch paddedResponse.encode).history
            = (told.map fun a => .replied a.1 (.answered a.2)).reverse ++ waitingClient.history ∧
          ∃ r, (0, r) ∈ told ∧ ∃ s, r.id = .text s ∧ WireId.Names s 1 := by
  obtain ⟨hparse, hformat, told, hhistory, -, hall, -⟩ :=
    told_iff_named waitingClient paddedResponse.encode "01" 1
  have hnames : WireId.Names "01" 1 := hparse.1 (by decide +kernel)
  refine ⟨hnames, ?_, rfl, ?_⟩
  . rw [Ne, hformat hnames]
    intro hplain
    cases hplain.unpadded ['1'] (by decide)
  . rw [responsesOf_paddedResponse] at hall
    exact ⟨told, hhistory, hall 0 rfl _ List.mem_cons_self rfl hnames⟩

end JsonRpc.Client
