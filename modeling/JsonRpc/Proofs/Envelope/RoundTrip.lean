import JsonRpc.Proofs.Envelope.ReadBack
import JsonRpc.Proofs.Json.ReadBack

/-!
Messages that are read as what they were, from their bytes. Members that a message carries besides
its own come back as they were, and never change what its own ones say.
-/

namespace JsonRpc

theorem find?_foreign_of_not_mem {key : String} (hkey : key ∉ reservedKeys) {own extra : Json.Members}
    (hown : ∀ e ∈ own, e.1 ∈ reservedKeys) (hextra : Keyed.Ascending extra)
    : Keyed.find? key (Keyed.ofList (own ++ foreignMembers extra))
        =
      Keyed.find? key (foreignMembers extra) := by
  have hnone : Keyed.find? key own.reverse = none := by
    apply Keyed.find?_eq_none
    rintro e he rfl
    exact hkey (hown e (List.mem_reverse.1 he))
  have hforeign : Keyed.Ascending (foreignMembers extra) := hextra.sublist List.filter_sublist
  rw [Keyed.find?_ofList, List.reverse_append, Keyed.find?_append, hnone, Option.or_none,
    ← Keyed.find?_ofList, Keyed.ofList_of_ascending hforeign]

theorem foldl_erase_own {owned : List String} (howned : ∀ key ∈ owned, key ∈ reservedKeys)
    {own extra : Json.Members} (hown : ∀ e ∈ own, e.1 ∈ owned) (hextra : Keyed.Ascending extra)
    : owned.foldl (fun m key => Keyed.erase key m) (Keyed.ofList (own ++ foreignMembers extra))
        =
      foreignMembers extra := by
  rw [Keyed.foldl_erase]
  apply Keyed.eq_of_find?
  . exact (Keyed.ascending_ofList _).sublist List.filter_sublist
  . exact hextra.sublist List.filter_sublist
  intro key
  rw [Keyed.find?_filter key fun k => !owned.contains k]
  by_cases hkey : key ∈ reservedKeys
  . have hforeign : Keyed.find? key (foreignMembers extra) = none := by
      unfold foreignMembers
      rw [Keyed.find?_filter key fun k => !reservedKeys.contains k, if_neg (by simpa using hkey)]
    rw [find?_foreign hkey, hforeign]
    split
    . next hnot =>
      apply Keyed.find?_eq_none
      rintro e he rfl
      have := hown e (List.mem_reverse.1 he)
      simp [this] at hnot
    . rfl
  . have hnot : key ∉ owned := fun hmem => hkey (howned key hmem)
    rw [if_pos (by simpa using hnot)]
    exact find?_foreign_of_not_mem hkey (fun e he => howned _ (hown e he)) hextra

theorem nodup_foreign {owned : List String} (howned : ∀ key ∈ owned, key ∈ reservedKeys)
    {own extra : Json.Members} (hown : ∀ e ∈ own, e.1 ∈ owned) (hnodup : (own.map (·.1)).Nodup)
    (hextra : Keyed.Ascending extra)
    : ((own ++ foreignMembers extra).map (·.1)).Nodup := by
  rw [List.map_append, List.nodup_append]
  refine ⟨hnodup, ?_, ?_⟩
  . exact Keyed.nodup_keys (hextra.sublist List.filter_sublist)
  . rintro a ha b hb rfl
    obtain ⟨e, he, rfl⟩ := List.mem_map.1 ha
    obtain ⟨e', he', heq⟩ := List.mem_map.1 hb
    have := (List.mem_filter.1 he').2
    rw [heq] at this
    simp [howned _ (hown e he)] at this

theorem Json.faithful_string (depth : Nat) (s : String) : Json.Faithful depth (.string s) :=
  ⟨.string s, rfl⟩

theorem Json.faithful_ofInt64 (depth : Nat) (n : Int64) : Json.Faithful depth (.ofInt64 n) :=
  ⟨.integer _ _, rfl⟩

theorem Id.faithful_toJson (depth : Nat) (id : Id) : Json.Faithful depth id.toJson := by
  cases id with
  | null => exact ⟨.null, rfl⟩
  | int n => exact Json.faithful_ofInt64 depth n
  | text s => exact Json.faithful_string depth s

namespace Request

structure Faithful (r : Request) : Prop where
  params : ∀ params, r.params = some params → Json.Faithful (Json.maxDepth - 1) params
  extra : ∀ e ∈ foreignMembers r.extra, Json.Faithful (Json.maxDepth - 1) e.2
  ascending : Keyed.Ascending r.extra

theorem Faithful.members {r : Request} (h : r.Faithful)
    : ∀ e ∈ r.members, Json.Faithful (Json.maxDepth - 1) e.2 := by
  unfold Request.members
  simp only [List.forall_mem_append, List.forall_mem_singleton]
  refine ⟨⟨⟨⟨Json.faithful_string _ _, ?_⟩, Json.faithful_string _ _⟩, ?_⟩, h.extra⟩
  . split
    . simp
    . simpa using Id.faithful_toJson _ r.id
  . cases hparams : r.params with
    | none => simp
    | some params => simpa using h.params params hparams

theorem Faithful.readsBack {r : Request} (h : r.Faithful) : r.ReadsBack := by
  have hread := Json.decode?_encode_object fun e he => (h.members e he).readable
  rw [Json.sortedMembers_of_sorted fun e he => (h.members e he).sorted] at hread
  exact hread

theorem key_of_mem_own {r : Request}
    : ∀ e ∈ r.ownMembers, e.1 ∈ ["jsonrpc", "method", "params", "id"] := by
  unfold ownMembers
  cases r.notification <;> cases r.params <;> simp

theorem furtherMembers_members {r : Request} (h : Keyed.Ascending r.extra)
    : furtherMembers (Keyed.ofList r.members) = foreignMembers r.extra := by
  exact foldl_erase_own (by decide) key_of_mem_own h

theorem decode_encode {r : Request} (h : r.Faithful)
    : decode r.encode
        =
      (do
        let method ← readMethod (some (.string r.method))
        let params ← readParams r.params
        return {
          method
          params
          notification := r.notification
          id := if r.notification then .null else r.id
          extra := foreignMembers r.extra }) := by
  unfold decode
  rw [h.readsBack]
  dsimp only
  rw [ofJson_toJson, furtherMembers_members h.ascending]

theorem readParams_of_valid {r : Request} (h : r.hasValidParams) : readParams r.params = .ok r.params := by
  unfold hasValidParams at h
  split at h
  . next hparams => rw [hparams]; rfl
  . next hparams => rw [hparams]; rfl
  . next hparams => rw [hparams]; rfl
  . cases h

theorem decode_encode_of_valid {r : Request} (h : r.Faithful) (hmethod : r.method ≠ "")
    (hparams : r.hasValidParams)
    : decode r.encode
        =
      .ok { r with
        id := if r.notification then .null else r.id
        extra := foreignMembers r.extra } := by
  have hread : readMethod (some (.string r.method)) = .ok r.method := by simp [readMethod, hmethod]
  rw [decode_encode h, hread, readParams_of_valid hparams]
  rfl

theorem nodup_members {r : Request} (h : Keyed.Ascending r.extra)
    : (r.members.map (·.1)).Nodup := by
  have hown : (r.ownMembers.map (·.1)).Nodup := by
    unfold ownMembers
    cases r.notification <;> cases r.params <;> simp
  exact nodup_foreign (by decide) key_of_mem_own hown h

def bare (r : Request) : Request :=
  { r with extra := [] }

theorem decode_encode_bare {r : Request} (h : r.Faithful)
    : (decode r.encode).map bare
        =
      (do
        let method ← readMethod (some (.string r.method))
        let params ← readParams r.params
        return {
          method
          params
          notification := r.notification
          id := if r.notification then .null else r.id }) := by
  rw [decode_encode h]
  cases readMethod (some (.string r.method)) with
  | error fault => rfl
  | ok method => cases readParams r.params <;> rfl

end Request

namespace ErrorObject

theorem nodup_members (e : ErrorObject) : (e.members.map (·.1)).Nodup := by
  unfold members
  cases e.data <;> simp

theorem readable_written {depth : Nat} {e : ErrorObject}
    (h : ∀ data, e.data = some data → Json.Faithful depth data)
    : Json.Readable (depth + 1) e.written ∧ e.written.sorted = e.toJson := by
  have hmembers : ∀ m ∈ e.members, Json.Faithful depth m.2 := by
    unfold members
    simp only [List.forall_mem_append, List.forall_mem_cons]
    refine ⟨⟨Json.faithful_ofInt64 _ _, Json.faithful_string _ _, by simp⟩, ?_⟩
    cases hdata : e.data with
    | none => simp
    | some data => simpa using h data hdata
  constructor
  . exact .object e.members fun m hm => (hmembers m hm).readable
  . unfold written toJson Json.sorted
    rw [Json.sortedMembers_of_sorted fun m hm => (hmembers m hm).sorted]

end ErrorObject

namespace Response

structure Faithful (r : Response) : Prop where
  result : ∀ value, r.outcome = .result value → Json.Faithful (Json.maxDepth - 1) value
  data : ∀ object data, r.outcome = .error object → object.data = some data →
    Json.Faithful (Json.maxDepth - 2) data
  extra : ∀ e ∈ foreignMembers r.extra, Json.Faithful (Json.maxDepth - 1) e.2
  ascending : Keyed.Ascending r.extra

theorem Faithful.outcome {r : Response} (h : r.Faithful)
    : Json.Readable (Json.maxDepth - 1) (outcomeMember r.outcome).2 ∧
        ((outcomeMember r.outcome).1, (outcomeMember r.outcome).2.sorted) = outcomeValue r.outcome := by
  cases houtcome : r.outcome with
  | result value =>
    obtain ⟨hreadable, hsorted⟩ := h.result value houtcome
    refine ⟨hreadable, ?_⟩
    dsimp only [outcomeMember, outcomeValue]
    rw [hsorted]
  | error object =>
    have hobject := ErrorObject.readable_written fun data hdata => h.data object data houtcome hdata
    refine ⟨hobject.1, ?_⟩
    dsimp only [outcomeMember, outcomeValue]
    rw [hobject.2]

theorem Faithful.readsBack {r : Response} (h : r.Faithful) : r.ReadsBack := by
  obtain ⟨hreadable, hsorted⟩ := h.outcome
  have hmembers : ∀ e ∈ r.members, Json.Readable (Json.maxDepth - 1) e.2 := by
    unfold Response.members
    simp only [List.forall_mem_append, List.forall_mem_cons]
    exact ⟨⟨.string _, (Id.faithful_toJson _ r.id).readable, hreadable, by simp⟩,
      fun e he => (h.extra e he).readable⟩
  have hmembers' : Json.sortedMembers r.members = r.ownMembers ++ foreignMembers r.extra := by
    change Json.sortedMembers (_ :: _ :: outcomeMember r.outcome :: foreignMembers r.extra) = _
    rw [Json.sortedMembers_cons, Json.sortedMembers_cons, Json.sortedMembers_cons, hsorted,
      Json.sortedMembers_of_sorted fun e he => (h.extra e he).sorted,
      (Id.faithful_toJson (Json.maxDepth - 1) r.id).sorted]
    rfl
  have hread := Json.decode?_encode_object hmembers
  rw [hmembers', ← toJson_eq] at hread
  exact hread

theorem key_of_mem_own {r : Response}
    : ∀ e ∈ r.ownMembers, e.1 ∈ ["jsonrpc", "id", "result", "error"] := by
  unfold ownMembers outcomeValue
  cases r.outcome <;> simp

theorem decodeBatch_encode_of_faithful {r : Response} (h : r.Faithful)
    : decodeBatch r.encode
        =
      .ok [{ r with outcome := r.outcome.asRead, extra := foreignMembers r.extra }] := by
  have hfurther : furtherMembers (Keyed.ofList (r.ownMembers ++ foreignMembers r.extra))
      = foreignMembers r.extra := foldl_erase_own (by decide) key_of_mem_own h.ascending
  rw [decodeBatch_of_readsBack h.readsBack, ofJson_toJson, hfurther]
  rfl

theorem nodup_members {r : Response} (h : Keyed.Ascending r.extra)
    : (r.members.map (·.1)).Nodup := by
  have hkeys : r.members.map (·.1) = (r.ownMembers ++ foreignMembers r.extra).map (·.1) := by
    unfold members ownMembers
    cases r.outcome <;> rfl
  have hown : (r.ownMembers.map (·.1)).Nodup := by
    unfold ownMembers outcomeValue
    cases r.outcome <;> simp
  rw [hkeys]
  exact nodup_foreign (by decide) key_of_mem_own hown h

def bare (r : Response) : Response :=
  { r with extra := [] }

end Response

/--
A request with a method and valid parameters, and every response, are read from their bytes as what
they were: a notification without an identifier, null data of an error as none, and of the further
members those whose names the envelope does not own. No object that is written has two members of
one name; and whatever the further members are, even of a request that is refused, they change
nothing of what else is read. This is so wherever what is carried reads back by itself.
-/
theorem envelopes_read_back
    : (∀ r : Request, r.Faithful → r.method ≠ "" → r.hasValidParams →
        Request.decode r.encode
          = .ok { r with
              id := if r.notification then .null else r.id
              extra := foreignMembers r.extra }) ∧
      (∀ r : Response, r.Faithful →
        Response.decodeBatch r.encode
          = .ok [{ r with outcome := r.outcome.asRead, extra := foreignMembers r.extra }]) ∧
      (∀ r : Request, Keyed.Ascending r.extra → (r.members.map (·.1)).Nodup) ∧
      (∀ r : Response, Keyed.Ascending r.extra → (r.members.map (·.1)).Nodup) ∧
      (∀ e : ErrorObject, (e.members.map (·.1)).Nodup) ∧
      (∀ (r : Request) (extra : Json.Members), r.Faithful → { r with extra }.Faithful →
        (Request.decode { r with extra }.encode).map Request.bare
          = (Request.decode r.encode).map Request.bare) ∧
      ∀ (r : Response) (extra : Json.Members), r.Faithful → { r with extra }.Faithful →
        (Response.decodeBatch { r with extra }.encode).map (·.map Response.bare)
          = (Response.decodeBatch r.encode).map (·.map Response.bare) := by
  refine ⟨?_, ?_, ?_, ?_, ErrorObject.nodup_members, ?_, ?_⟩
  . exact fun r h hmethod hparams => Request.decode_encode_of_valid h hmethod hparams
  . exact fun r h => Response.decodeBatch_encode_of_faithful h
  . exact fun r h => Request.nodup_members h
  . exact fun r h => Response.nodup_members h
  . intro r extra h hextra
    rw [Request.decode_encode_bare h, Request.decode_encode_bare hextra]
  . intro r extra h hextra
    rw [Response.decodeBatch_encode_of_faithful h, Response.decodeBatch_encode_of_faithful hextra]
    rfl

def disguisedRequest : Request where
  method := "sum"
  params := some (.array [.ofInt64 1, .object [("a", .null), ("b", .bool true)]])
  id := .int 7
  extra := [("id", .string "8"), ("method", .string "drop"), ("trace", .string "t")]

def failedResponse : Response where
  id := .int 7
  outcome := .error { code := -32000, message := "no", data := some .null }
  extra := [("result", .bool true), ("trace", .string "t")]

theorem envelopes_read_back_of_disguised
    : Request.decode disguisedRequest.encode
          = .ok { disguisedRequest with extra := [("trace", .string "t")] } ∧
        Response.decodeBatch failedResponse.encode
          = .ok [{ failedResponse with
              outcome := .error { code := -32000, message := "no" }
              extra := [("trace", .string "t")] }] := by
  obtain ⟨hrequest, hresponse, -⟩ := envelopes_read_back
  have hparams : Json.Faithful (Json.maxDepth - 1)
      (.array [.ofInt64 1, .object [("a", .null), ("b", .bool true)]]) := by
    refine ⟨.array _ ?_, by decide +kernel⟩
    simp only [List.forall_mem_cons]
    refine ⟨(Json.faithful_ofInt64 _ 1).readable, .object _ ?_, by simp⟩
    simp only [List.forall_mem_cons]
    exact ⟨.null, .bool true, by simp⟩
  have hforeign : foreignMembers disguisedRequest.extra = [("trace", .string "t")] := by
    decide +kernel
  have hforeign' : foreignMembers failedResponse.extra = [("trace", .string "t")] := by
    decide +kernel
  have hfaithful : disguisedRequest.Faithful := by
    refine ⟨?_, ?_, by decide +kernel⟩
    . rintro params ⟨⟩
      exact hparams
    . rw [hforeign]
      simpa using Json.faithful_string _ "t"
  have hfaithful' : failedResponse.Faithful := by
    refine ⟨?_, ?_, ?_, by decide +kernel⟩
    . rintro value ⟨⟩
    . rintro object data ⟨⟩ ⟨⟩
      exact ⟨.null, rfl⟩
    . rw [hforeign']
      simpa using Json.faithful_string _ "t"
  have hread := hrequest disguisedRequest hfaithful (by decide) rfl
  have hread' := hresponse failedResponse hfaithful'
  rw [hforeign] at hread
  rw [hforeign'] at hread'
  exact ⟨hread, hread'⟩

end JsonRpc
