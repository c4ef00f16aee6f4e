import JsonRpc.Proofs.Client.Ledger
import JsonRpc.Proofs.Json.ReadBack

/-!
Batches. Main statement: a message that holds a list of responses does what the items of the list
do as messages of their own, one after another.
-/

namespace JsonRpc

def Json.Flat (items : List Json) : Prop :=
  ∀ v ∈ items, ∀ inner, v ≠ .array inner

theorem Json.Flat.sorted {items : List Json} (h : Flat items) : Flat (items.map Json.sorted) := by
  intro v hv inner heq
  obtain ⟨item, hitem, rfl⟩ := List.mem_map.1 hv
  cases item with
  | array inner => exact h _ hitem inner rfl
  | _ => cases heq

namespace Response

def inItems (items : List Json) : List Response :=
  items.filterMap fun v => (ofJson v).toOption

end Response

namespace Client

theorem responsesOf_batch {whole : Bytes} {items : List Json}
    (h : Json.decode? whole = some (.array items))
    : responsesOf whole = Response.inItems items := by
  simp [responsesOf, Response.decodeBatch, h, Response.batchOfJson, Response.inItems,
    Except.toOption]

theorem responsesOf_single {message : Bytes} {v : Json} (hflat : ∀ inner, v ≠ .array inner)
    (h : Json.decode? message = some v)
    : responsesOf message = (Response.ofJson v).toOption.toList := by
  have hbatch : Response.batchOfJson v = (Response.ofJson v).map ([·]) := by
    cases v with
    | array items => exact absurd rfl (hflat items)
    | _ => rfl
  simp only [responsesOf, Response.decodeBatch, h, hbatch]
  cases Response.ofJson v <;> rfl

theorem responsesOf_singles {items : List Json} (hflat : Json.Flat items) {alone : List Bytes}
    (h : List.Forall₂ (fun message v => Json.decode? message = some v) alone items)
    : alone.flatMap responsesOf = Response.inItems items := by
  induction h with
  | nil => rfl
  | @cons message v alone items hv _ ih =>
    obtain ⟨hitem, hitems⟩ := List.forall_mem_cons.1 hflat
    rw [List.flatMap_cons, responsesOf_single hitem hv, ih hitems]
    unfold Response.inItems
    rw [List.filterMap_cons]
    cases (Response.ofJson v).toOption <;> rfl

theorem dispatch_eq_foldl (c : Client) (message : Bytes)
    : c.dispatch message = (responsesOf message).foldl deliver c := by
  rw [dispatch_eq, foldl_deliver]

theorem foldl_dispatch (c : Client) (messages : List Bytes)
    : messages.foldl dispatch c = (messages.flatMap responsesOf).foldl deliver c := by
  rw [List.foldl_flatMap]
  congr 1
  funext c message
  exact dispatch_eq_foldl c message

theorem dispatch_eq_foldl_dispatch (c : Client) {items : List Json} (hflat : Json.Flat items)
    {whole : Bytes} {alone : List Bytes} (hwhole : Json.decode? whole = some (.array items))
    (halone : List.Forall₂ (fun message v => Json.decode? message = some v) alone items)
    : c.dispatch whole = alone.foldl dispatch c := by
  rw [foldl_dispatch, responsesOf_singles hflat halone, dispatch_eq_foldl, responsesOf_batch hwhole]

theorem dispatch_encode_array (c : Client) {items : List Json} (hflat : Json.Flat items)
    (hreadable : ∀ v ∈ items, Json.Readable (Json.maxDepth - 1) v)
    : c.dispatch (Json.array items).encode = (items.map Json.encode).foldl dispatch c := by
  have hwhole : Json.decode? (Json.array items).encode = some (.array (items.map Json.sorted)) := by
    rw [Json.decode?_encode (.array items hreadable), Json.sorted, Json.sortedItems_eq]
  apply dispatch_eq_foldl_dispatch c hflat.sorted hwhole
  rw [List.forall₂_map_left_iff, List.forall₂_map_right_iff, List.forall₂_same]
  intro v hv
  exact Json.decode?_encode (hreadable v hv).succ

theorem dispatch_of_unread (c : Client) {message : Bytes} (h : Json.decode? message = none)
    : c.dispatch message = c := by
  simp [dispatch, Response.decodeBatch, h]

theorem dispatch_of_malformed (c : Client) {message : Bytes} {v : Json}
    (hflat : ∀ inner, v ≠ .array inner) (h : Json.decode? message = some v)
    (hmalformed : ∀ r, Response.ofJson v ≠ .ok r) : c.dispatch message = c := by
  have hnone : (Response.ofJson v).toOption = none := by
    cases hread : Response.ofJson v with
    | ok r => exact absurd hread (hmalformed r)
    | error error => rfl
  rw [dispatch_eq_foldl, responsesOf_single hflat h, hnone]
  rfl

/--
For a list none of whose items is a list: a message that is read as the list does what messages
that are read as its items do, one after another, and so do the texts that the list and its items
are printed as, if the list does not nest too deeply. An item that is no response does nothing.
The calls that no response of the list names wait on, and of the responses to one call only the
first is told. What cannot be read is dropped as a whole.
-/
theorem dispatch_batch (c : Client) {items : List Json} (hflat : Json.Flat items)
    : (∀ whole alone, Json.decode? whole = some (.array items) →
          List.Forall₂ (fun message v => Json.decode? message = some v) alone items →
          c.dispatch whole = alone.foldl dispatch c) ∧
        ((∀ v ∈ items, Json.Readable (Json.maxDepth - 1) v) →
          c.dispatch (Json.array items).encode = (items.map Json.encode).foldl dispatch c) ∧
        (∀ v ∈ items, (∀ r, Response.ofJson v ≠ .ok r) →
          ∀ message, Json.decode? message = some v → ∀ c' : Client, c'.dispatch message = c') ∧
        (∀ whole, Json.decode? whole = some (.array items) →
          (c.dispatch whole).pending
            = c.pending.filter (fun e =>
                (Response.inItems items).all fun r => callOf? r.id ≠ some e.1) ∧
          ∃ told : List (Nat × Response),
            (c.dispatch whole).history
              = (told.map fun a => .replied a.1 (.answered a.2)).reverse ++ c.history ∧
            (told.map Prod.snd).Sublist (Response.inItems items) ∧
            ∀ id, told.filter (fun a => callOf? a.2.id = some id)
              = ((c.pending.lookup id).bind fun ticket =>
                  ((Response.inItems items).find? fun r => callOf? r.id = some id).map
                    (ticket, ·)).toList) ∧
        ∀ message, Json.decode? message = none → c.dispatch message = c := by
  refine ⟨?_, dispatch_encode_array c hflat, ?_, ?_, fun message => dispatch_of_unread c⟩
  . intro whole alone hwhole halone
    exact dispatch_eq_foldl_dispatch c hflat hwhole halone
  . intro v hv hmalformed message hmessage c'
    exact dispatch_of_malformed c' (hflat v hv) hmessage hmalformed
  . intro whole hwhole
    rw [dispatch_eq, responsesOf_batch hwhole]
    exact ⟨unanswered_eq_filter _, answers c.pending (Response.inItems items), rfl,
      answers_sublist _, fun id => filter_answers id _⟩

def resultFor (id : String) (value : Json) : Json :=
  .object [("id", .string id), ("jsonrpc", .string "2.0"), ("result", value)]

theorem readable_resultFor {depth : Nat} {value : Json} (h : Json.Readable depth value)
    (id : String) : Json.Readable (depth + 1) (resultFor id value) := by
  apply Json.Readable.object
  rintro e he
  simp only [List.mem_cons, List.not_mem_nil, or_false] at he
  rcases he with rfl | rfl | rfl
  . exact .string id
  . exact .string "2.0"
  . exact h

def nested : Nat → Json
  | 0 => .array []
  | depth + 1 => .array [nested depth]

theorem readable_nested (depth : Nat) : Json.Readable (depth + 1) (nested depth) := by
  induction depth with
  | zero => exact .array [] nofun
  | succ depth ih =>
    apply Json.Readable.array
    intro v hv
    rwa [List.mem_singleton.1 hv]

def deepResponse : Json :=
  resultFor "1" (nested 125)

def waitingClient : Client :=
  { mailboxSize := 1, inboundBuffer := 1, pending := [(1, 0)] }

/-- The list around a response is too deep to be read, although the response is not. -/
theorem dispatch_deepBatch
    : Json.Flat [deepResponse] ∧
        (waitingClient.dispatch (Json.array [deepResponse]).encode).pending = [(1, 0)] ∧
        (waitingClient.dispatch (Json.array [deepResponse]).encode).answered = [] ∧
        (([deepResponse].map Json.encode).foldl dispatch waitingClient).pending = [] ∧
        (([deepResponse].map Json.encode).foldl dispatch waitingClient).answered = [0] := by
  have hflat : Json.Flat [deepResponse] := by simp [Json.Flat, deepResponse, resultFor]
  have hbatch : Json.decode? (Json.array [deepResponse]).encode = none := by
    rw [Json.decode?_encode_eq]
    decide +kernel
  have hsingle : responsesOf deepResponse.encode
      = [{ id := .text "1", outcome := .result (nested 125).sorted }] := by
    have hread : Json.decode? deepResponse.encode = some deepResponse.sorted :=
      Json.decode?_encode (readable_resultFor (readable_nested 125) "1")
    rw [responsesOf_single (by simp [Json.sorted, deepResponse, resultFor]) hread]
    decide +kernel
  rw [dispatch_of_unread _ hbatch, List.map_singleton, List.foldl_cons, List.foldl_nil,
    dispatch_eq, hsingle]
  exact ⟨hflat, rfl, rfl, by decide, by decide⟩

def mixedItems : List Json :=
  [resultFor "01" (.bool true), .string "noise", resultFor "1" (.bool false), resultFor "7" .null]

theorem dispatch_batch_of_mixed
    : Json.Flat mixedItems ∧
        waitingClient.dispatch (Json.array mixedItems).encode
          = (mixedItems.map Json.encode).foldl dispatch waitingClient ∧
        (waitingClient.dispatch (Json.array mixedItems).encode).pending = [] ∧
        ∃ told : List (Nat × Response),
          (waitingClient.dispatch (Json.array mixedItems).encode).history
            = (told.map fun a => .replied a.1 (.answered a.2)).reverse ++ waitingClient.history ∧
          told.filter (fun a => callOf? a.2.id = some 1)
            = [(0, { id := .text "01", outcome := .result (.bool true) })] := by
  have hflat : Json.Flat mixedItems := by simp [Json.Flat, mixedItems, resultFor]
  have hreadable : ∀ v ∈ mixedItems, Json.Readable (Json.maxDepth - 1) v := by
    intro v hv
    simp only [mixedItems, List.mem_cons, List.not_mem_nil, or_false] at hv
    rcases hv with rfl | rfl | rfl | rfl
    . exact readable_resultFor (.bool true) "01"
    . exact .string "noise"
    . exact readable_resultFor (.bool false) "1"
    . exact readable_resultFor .null "7"
  have hwhole : Json.decode? (Json.array mixedItems).encode = some (.array mixedItems) := by
    decide +kernel
  obtain ⟨-, hencode, -, hread, -⟩ := dispatch_batch waitingClient hflat
  obtain ⟨hpending, told, htold, -, hfirst⟩ := hread _ hwhole
  refine ⟨hflat, hencode hreadable, ?_, told, htold, ?_⟩
  . rw [hpending]
    decide +kernel
  . rw [hfirst]
    decide +kernel

end Client

end JsonRpc
