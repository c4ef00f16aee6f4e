import JsonRpc.Envelope.Response
import JsonRpc.Proofs.Keyed

/-!
Messages that are read as they were written. Where the JSON text of a message is read as the value
of the message, the message is decoded as what it was.
-/

namespace JsonRpc

theorem bind_eq_ok {ε α β : Type} {x : Except ε α} {f : α → Except ε β} {b : β}
    (h : (do f (← x)) = .ok b) : ∃ a, x = .ok a ∧ f a = .ok b := by
  cases x with
  | error e => cases h
  | ok a => exact ⟨a, rfl, h⟩

theorem find?_foreign {key : String} (hkey : key ∈ reservedKeys) (own extra : Json.Members)
    : Keyed.find? key (Keyed.ofList (own ++ foreignMembers extra)) = Keyed.find? key own.reverse := by
  have hnone : Keyed.find? key (foreignMembers extra).reverse = none := by
    apply Keyed.find?_eq_none
    intro e he
    simp only [foreignMembers, List.mem_reverse, List.mem_filter, Bool.not_eq_true',
      List.contains_eq_mem, decide_eq_false_iff_not] at he
    rintro rfl
    exact he.2 hkey
  rw [Keyed.find?_ofList, List.reverse_append, Keyed.find?_append, hnone]
  rfl

theorem Id.ofJson_toJson (id : Id) : ofJson id.toJson = .ok id := by
  cases id with
  | null => rfl
  | text s => rfl
  | int n =>
    have hlt : n.toInt < (1 <<< 63 : Nat) := Int64.toInt_lt n
    simp only [toJson, Json.ofInt64, ofJson, Json.asInt64?, if_pos hlt, Int64.ofInt_toInt]

namespace Request

def ReadsBack (r : Request) : Prop :=
  Json.decode? r.encode = some r.toJson

instance (r : Request) : Decidable r.ReadsBack :=
  inferInstanceAs (Decidable (_ = _))

def ownMembers (r : Request) : Json.Members :=
  [("jsonrpc", .string protocolVersion)] ++
    (if r.notification then [] else [("id", r.id.toJson)]) ++
    [("method", .string r.method)] ++
    (match r.params with
      | none => []
      | some params => [("params", params)])

theorem find?_members {key : String} (hkey : key ∈ reservedKeys) (r : Request)
    : Keyed.find? key (Keyed.ofList r.members) = Keyed.find? key r.ownMembers.reverse := by
  exact find?_foreign hkey r.ownMembers r.extra

theorem find?_version (r : Request)
    : Keyed.find? "jsonrpc" (Keyed.ofList r.members) = some (.string protocolVersion) := by
  rw [find?_members (by decide)]
  unfold ownMembers
  cases r.notification <;> cases r.params <;> simp [Keyed.find?]

theorem find?_method (r : Request)
    : Keyed.find? "method" (Keyed.ofList r.members) = some (.string r.method) := by
  rw [find?_members (by decide)]
  unfold ownMembers
  cases r.notification <;> cases r.params <;> simp [Keyed.find?]

theorem find?_params (r : Request) : Keyed.find? "params" (Keyed.ofList r.members) = r.params := by
  rw [find?_members (by decide)]
  unfold ownMembers
  cases r.notification <;> cases r.params <;> simp [Keyed.find?]

theorem find?_id (r : Request)
    : Keyed.find? "id" (Keyed.ofList r.members)
        =
      if r.notification then none else some r.id.toJson := by
  rw [find?_members (by decide)]
  unfold ownMembers
  cases r.notification <;> cases r.params <;> simp [Keyed.find?]

theorem checkVersion_protocolVersion : checkVersion (some (.string protocolVersion)) = .ok () := by
  simp [checkVersion]

theorem readId_member (r : Request)
    : readId (if r.notification then none else some r.id.toJson)
        =
      .ok (r.notification, if r.notification then .null else r.id) := by
  cases r.notification with
  | true => rfl
  | false => simp [readId, Id.ofJson_toJson, Except.map]

theorem ofJson_toJson (r : Request)
    : ofJson r.toJson
        =
      (do
        let method ← readMethod (some (.string r.method))
        let params ← readParams r.params
        return {
          method
          params
          notification := r.notification
          id := if r.notification then .null else r.id
          extra := furtherMembers (Keyed.ofList r.members) }) := by
  simp only [ofJson, toJson, find?_version, find?_method, find?_params, find?_id, readId_member,
    checkVersion_protocolVersion]
  rfl

theorem eq_of_readMethod {method read : String} (h : readMethod (some (.string method)) = .ok read)
    : read = method := by
  unfold readMethod at h
  dsimp only at h
  split at h
  . cases h
  . cases h
    rfl

theorem eq_of_readParams {params read : Option Json} (h : readParams params = .ok read)
    : read = params := by
  unfold readParams at h
  split at h <;> cases h <;> rfl

theorem of_decode {r request : Request} (h : r.ReadsBack) (hdecode : decode r.encode = .ok request)
    : request.method = r.method ∧ request.params = r.params ∧
        request.notification = r.notification ∧
        request.id = if r.notification then .null else r.id := by
  unfold decode at hdecode
  rw [h] at hdecode
  dsimp only at hdecode
  rw [ofJson_toJson] at hdecode
  obtain ⟨method, hmethod, hdecode⟩ := bind_eq_ok hdecode
  obtain ⟨params, hparams, hdecode⟩ := bind_eq_ok hdecode
  cases hdecode
  exact ⟨eq_of_readMethod hmethod, eq_of_readParams hparams, rfl, rfl⟩

theorem named_of_readMethod {v : Option Json} {method : String} (h : readMethod v = .ok method)
    : method ≠ "" := by
  unfold readMethod at h
  split at h
  . split at h
    . cases h
    . next hne =>
      cases h
      exact hne
  . cases h

theorem named_of_decode {message : Bytes} {request : Request} (h : decode message = .ok request)
    : request.method ≠ "" := by
  unfold decode ofJson at h
  split at h
  . cases h
  . split at h
    . next members =>
      obtain ⟨-, -, h⟩ := bind_eq_ok h
      obtain ⟨method, hmethod, h⟩ := bind_eq_ok h
      obtain ⟨params, -, h⟩ := bind_eq_ok h
      obtain ⟨id, -, h⟩ := bind_eq_ok h
      cases h
      exact named_of_readMethod hmethod
    . cases h
    . cases h

end Request

namespace Response

def ReadsBack (r : Response) : Prop :=
  Json.decode? r.encode = some r.toJson

instance (r : Response) : Decidable r.ReadsBack :=
  inferInstanceAs (Decidable (_ = _))

end Response

def Outcome.asRead : Outcome → Outcome
  | .result value => .result value
  | .error object => .error { object with data := object.data.filter (· ≠ .null) }

theorem ErrorCode.ofJson_ofInt64 (code : ErrorCode) : ErrorCode.ofJson (Json.ofInt64 code) = .ok code := by
  have hlt : code.toInt < (1 <<< 63 : Nat) := Int64.toInt_lt code
  unfold ErrorCode.ofJson Json.toInt64 Json.ofInt64
  dsimp only
  rw [if_pos hlt, Int64.ofInt_toInt]

theorem ErrorObject.sorted_members (e : ErrorObject)
    : Keyed.ofList e.members
        =
      [("code", .ofInt64 e.code)] ++ e.data.toList.map (("data", ·)) ++
        [("message", .string e.message)] := by
  have hmessage : ¬"message" < "code" ∧ "message" ≠ "code" := by decide
  have hdata : ¬"data" < "code" ∧ "data" ≠ "code" ∧ "data" < "message" := by decide
  unfold members
  cases e.data with
  | none =>
    simp only [Keyed.ofList, Keyed.insert, hmessage, List.append_nil, List.foldl_cons,
      List.foldl_nil, if_false]
    rfl
  | some data =>
    simp only [Keyed.ofList, Keyed.insert, hmessage, hdata, List.cons_append, List.nil_append,
      List.foldl_cons, List.foldl_nil, if_false, if_true]
    rfl

theorem ErrorObject.ofJson_toJson (e : ErrorObject)
    : ofJson e.toJson = .ok { e with data := e.data.filter (· ≠ .null) } := by
  unfold toJson
  rw [sorted_members]
  unfold ofJson
  cases hdata : e.data with
  | none =>
    simp [Fields.read, Fields.finish, ErrorCode.ofJson_ofInt64, Json.toText, bind, Except.bind,
      pure, Except.pure]
  | some data =>
    cases data <;>
      simp [Fields.read, Fields.finish, ErrorCode.ofJson_ofInt64, Json.toText, Json.toOption,
        Json.toJson, bind, Except.bind, pure, Except.pure, Except.map, Option.filter]

namespace Response

def outcomeValue : Outcome → String × Json
  | .result value => ("result", value)
  | .error object => ("error", object.toJson)

def ownMembers (r : Response) : Json.Members :=
  [("jsonrpc", .string protocolVersion), ("id", r.id.toJson), outcomeValue r.outcome]

theorem toJson_eq (r : Response)
    : r.toJson = .object (Keyed.ofList (r.ownMembers ++ foreignMembers r.extra)) := by
  unfold toJson ownMembers outcomeValue
  cases r.outcome <;> rfl

theorem readOutcome_own (r : Response)
    : readOutcome (Keyed.find? "result" r.ownMembers.reverse)
          (Keyed.find? "error" r.ownMembers.reverse)
        =
      .ok r.outcome.asRead := by
  unfold ownMembers
  cases r.outcome with
  | result value => simp [outcomeValue, Keyed.find?, readOutcome, Outcome.asRead]
  | error object =>
    simp [outcomeValue, Keyed.find?, readOutcome, Outcome.asRead, ErrorObject.ofJson_toJson]

theorem find?_version (r : Response)
    : Keyed.find? "jsonrpc" r.ownMembers.reverse = some (.string protocolVersion) := by
  unfold ownMembers outcomeValue
  cases r.outcome <;> simp [Keyed.find?]

theorem find?_id (r : Response) : Keyed.find? "id" r.ownMembers.reverse = some r.id.toJson := by
  unfold ownMembers outcomeValue
  cases r.outcome <;> simp [Keyed.find?]

theorem ofJson_toJson (r : Response)
    : ofJson r.toJson
        =
      .ok ⟨r.id, r.outcome.asRead,
        furtherMembers (Keyed.ofList (r.ownMembers ++ foreignMembers r.extra))⟩ := by
  rw [toJson_eq]
  simp only [ofJson]
  rw [find?_foreign (by decide), find?_foreign (by decide), find?_foreign (by decide),
    find?_foreign (by decide), find?_version, find?_id, readOutcome_own,
    Request.checkVersion_protocolVersion, readId, Id.ofJson_toJson]
  rfl

theorem decodeBatch_of_readsBack {r : Response} (h : r.ReadsBack)
    : decodeBatch r.encode = (ofJson r.toJson).map ([·]) := by
  unfold decodeBatch
  rw [h]
  dsimp only
  rw [toJson_eq]
  rfl

theorem decodeBatch_encode {r : Response} (h : r.ReadsBack)
    : ∃ extra, decodeBatch r.encode = .ok [⟨r.id, r.outcome.asRead, extra⟩] := by
  rw [decodeBatch_of_readsBack h, ofJson_toJson]
  exact ⟨_, rfl⟩

end Response

end JsonRpc
