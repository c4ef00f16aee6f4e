import JsonRpc.Proofs.Run
import JsonRpc.Proofs.Text.Utf8
import JsonRpc.Transport.WebSocket.Pipe

/-!
What is read from the items that a connection yields, one message after another, and that what was
written is read at the other end, if the library delivers what it is given.
-/

namespace JsonRpc.WebSocket

namespace Item

def isLast : Item → Bool
  | .close | .failure _ => true
  | _ => false

end Item

def messages (items : List Item) : List Bytes :=
  (items.takeWhile fun item => !item.isLast).filterMap Item.payload?

def ending (items : List Item) : TransportError :=
  match items.find? Item.isLast with
  | some (.failure cause) => lost cause
  | _ => closed

def behind (items : List Item) : List Item :=
  (items.dropWhile fun item => !item.isLast).tail

theorem readMessage_control {item : Item} (h : item.isControl) (rest : List Item)
    : readMessage (item :: rest) = readMessage rest := by
  cases item with
  | ping | pong | frame => rfl
  | text | binary | close | failure => cases h

theorem readMessage_payload {item : Item} {message : Bytes} (h : item.payload? = some message)
    (rest : List Item) : readMessage (item :: rest) = (.ok message, rest) := by
  cases item with
  | text | binary =>
    cases h
    rfl
  | ping | pong | frame | close | failure => cases h

theorem Item.payload?_ofMessage (message : Bytes) : (ofMessage message).payload? = some message := by
  unfold ofMessage
  split
  . next value hvalue => rw [payload?, Text.Utf8.encode_of_decode? hvalue]
  . rfl

theorem tellTimes_readMessage (items : List Item)
    : tellTimes readMessage ((messages items).length + 1) items
        =
      ((messages items).map .ok ++ [.error (ending items)], behind items) := by
  induction items with
  | nil => rfl
  | cons item items ih =>
    cases item with
    | text value =>
      have hmessages : messages (.text value :: items)
          = Text.Utf8.encode value :: messages items := rfl
      rw [hmessages, List.length_cons, tellTimes, readMessage, ih]
      rfl
    | binary bytes =>
      have hmessages : messages (.binary bytes :: items) = bytes :: messages items := rfl
      rw [hmessages, List.length_cons, tellTimes, readMessage, ih]
      rfl
    | ping | pong | frame => exact ih
    | close | failure => rfl

theorem tellTimes_of_prefix {sent : List Bytes} {items : List Item}
    (h : sent.map Item.ofMessage <+: items.filter fun item => !item.isControl)
    : (tellTimes readMessage sent.length items).1 = sent.map .ok := by
  induction items generalizing sent with
  | nil =>
    obtain rfl : sent = [] := by simpa using h
    rfl
  | cons item items ih =>
    cases sent with
    | nil => rfl
    | cons message sent =>
      cases hcontrol : item.isControl with
      | true =>
        rw [List.filter_cons_of_neg (by simp [hcontrol])] at h
        rw [← ih h, List.length_cons, tellTimes, tellTimes, readMessage_control hcontrol]
      | false =>
        rw [List.filter_cons_of_pos (by simp [hcontrol]), List.map_cons,
          List.cons_prefix_cons] at h
        obtain ⟨rfl, hrest⟩ := h
        rw [List.length_cons, tellTimes,
          readMessage_payload (Item.payload?_ofMessage message), ih hrest]
        rfl

def accepted {α ε : Type} (results : List (Except ε Unit)) (sent : List α) : List α :=
  (sent.zip results).filterMap fun (item, result) => result.toOption.map fun _ => item

theorem accepted_map {α β ε : Type} (f : α → β) (results : List (Except ε Unit)) (sent : List α)
    : accepted results (sent.map f) = (accepted results sent).map f := by
  induction sent generalizing results with
  | nil => rfl
  | cons item sent ih =>
    cases results with
    | nil => rfl
    | cons result results =>
      have hrest := ih results
      unfold accepted at *
      cases result with
      | ok => exact congrArg (f item :: ·) hrest
      | error => exact hrest

theorem accepted_mapError {α ε δ : Type} (f : ε → δ) (results : List (Except ε Unit))
    (sent : List α) : accepted (results.map (·.mapError f)) sent = accepted results sent := by
  induction sent generalizing results with
  | nil => rfl
  | cons item sent ih =>
    cases results with
    | nil => rfl
    | cons result results =>
      have hrest := ih results
      unfold accepted at *
      cases result with
      | ok => exact congrArg (item :: ·) hrest
      | error => exact hrest

theorem accepted_of_ok {α ε : Type} {results : List (Except ε Unit)} {sent : List α}
    (hlength : results.length = sent.length) (h : ∀ result ∈ results, result = .ok ())
    : accepted results sent = sent := by
  induction sent generalizing results with
  | nil => rfl
  | cons item sent ih =>
    cases results with
    | nil => cases hlength
    | cons result results =>
      obtain ⟨hfirst, hlater⟩ := List.forall_mem_cons.1 h
      have hrest := ih (Nat.succ.inj hlength) hlater
      unfold accepted at *
      simpa [hfirst, Except.toOption] using hrest

namespace Library

def sendAll (lib : Library) (s : lib.State) (items : List Item)
    : List (Except IoFault Unit) × lib.State :=
  tellAll (fun s item => lib.send item s) s items

def writeAll (lib : Library) (s : lib.State) (sent : List Bytes)
    : List (Except TransportError Unit) × lib.State :=
  tellAll (fun s message => lib.writeMessage message s) s sent

/--
What the library is relied on for: of these items, those that it takes arrive intact and in order,
with nothing but control items between them.
-/
def Delivers (lib : Library) (s : lib.State) (items : List Item) : Prop :=
  accepted (lib.sendAll s items).1 items
    <+: (lib.arrivals (lib.sendAll s items).2).filter fun item => !item.isControl

theorem writeAll_eq (lib : Library) (s : lib.State) (sent : List Bytes)
    : lib.writeAll s sent
        =
      ((lib.sendAll s (sent.map Item.ofMessage)).1.map (·.mapError sendFailure),
        (lib.sendAll s (sent.map Item.ofMessage)).2) := by
  unfold writeAll sendAll
  induction sent generalizing s with
  | nil => rfl
  | cons message sent ih =>
    rw [List.map_cons, tellAll, tellAll, ih]
    rfl

theorem length_writeAll (lib : Library) (s : lib.State) (sent : List Bytes)
    : (lib.writeAll s sent).1.length = sent.length := by
  unfold writeAll
  induction sent generalizing s with
  | nil => rfl
  | cons message sent ih => rw [tellAll, List.length_cons, ih, List.length_cons]

def written (lib : Library) (s : lib.State) (sent : List Bytes) : List Bytes :=
  accepted (lib.writeAll s sent).1 sent

theorem map_written (lib : Library) (s : lib.State) (sent : List Bytes)
    : (lib.written s sent).map Item.ofMessage
        = accepted (lib.sendAll s (sent.map Item.ofMessage)).1 (sent.map Item.ofMessage) := by
  rw [written, writeAll_eq, accepted_mapError, accepted_map]

end Library

/--
Reading gives the messages before the first close or failure, in order, and then fails for that
reason; the end is as good as a close. What is written is carried by items that are read as what was
written: if the library delivers the items that it takes, the messages whose writes succeed are read
at the other end, in order and each once, and they are all messages if no write fails.
-/
theorem messages_delivered
    : (∀ items, tellTimes readMessage ((messages items).length + 1) items
          = ((messages items).map .ok ++ [.error (ending items)], behind items)) ∧
        ∀ (lib : Library) (s : lib.State) (sent : List Bytes),
          lib.Delivers s (sent.map Item.ofMessage) →
            (tellTimes readMessage (lib.written s sent).length
                (lib.arrivals (lib.writeAll s sent).2)).1 = (lib.written s sent).map .ok ∧
              ((∀ result ∈ (lib.writeAll s sent).1, result = .ok ()) →
                lib.written s sent = sent) := by
  refine ⟨tellTimes_readMessage, ?_⟩
  intro lib s sent hdelivers
  constructor
  . apply tellTimes_of_prefix
    rw [lib.map_written, lib.writeAll_eq]
    exact hdelivers
  . exact accepted_of_ok (lib.length_writeAll s sent)

def arrivals : List Item :=
  [.text "a", .ping [1], .binary [0xff], .close]

theorem messages_delivered_of_arrivals
    : (tellTimes readMessage 3 arrivals).1 = [.ok [0x61], .ok [0xff], .error closed] ∧
        (tellTimes readMessage 2
            (Pipe.library.arrivals (Pipe.library.writeAll {} [[0x61], [0xff]]).2)).1
          = [.ok [0x61], .ok [0xff]] := by
  obtain ⟨hread, hwritten⟩ := messages_delivered
  have hdelivers : Pipe.library.Delivers {} ([[0x61], [0xff]].map Item.ofMessage) := by
    unfold Library.Delivers
    decide +kernel
  have hok : ∀ result ∈ (Pipe.library.writeAll {} [[0x61], [0xff]]).1, result = .ok () := by
    have hresults : (Pipe.library.writeAll {} [[0x61], [0xff]]).1 = [.ok (), .ok ()] := by rfl
    rw [hresults]
    simp
  obtain ⟨hpeer, hall⟩ := hwritten Pipe.library {} [[0x61], [0xff]] hdelivers
  refine ⟨?_, ?_⟩
  . have hthree : (tellTimes readMessage 3 arrivals).1 = _ := congrArg Prod.fst (hread arrivals)
    rw [hthree]
    rfl
  . rw [hall hok] at hpeer
    exact hpeer

end JsonRpc.WebSocket
