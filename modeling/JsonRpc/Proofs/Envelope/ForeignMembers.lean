import JsonRpc.Proofs.Envelope.RoundTrip

/-!
Members that a message carries besides its own. Reading a message takes its own members out, and
leaves those that the other kind of message owns among the further ones; writing drops these again.
So a message that was read is written as it was, unless it carries such a member.
-/

namespace JsonRpc

namespace Json

def Lacks (names : List String) (v : Json) : Prop :=
  ∀ name ∈ names, v.member? name = none

instance (names : List String) (v : Json) : Decidable (Lacks names v) :=
  inferInstanceAs (Decidable (∀ name ∈ names, v.member? name = none))

end Json

section Strays

variable {owned strays : List String} {members : Json.Members}

theorem filter_eq_self_iff
    : members.filter (fun e => !strays.contains e.1) = members
        ↔ Json.Lacks strays (.object members) := by
  rw [List.filter_eq_self]
  constructor
  . intro hkept name hname
    apply Keyed.find?_eq_none
    rintro e he rfl
    simpa [hname] using hkept e he
  . intro hlacks e he
    have hnone (hmem : e.1 ∈ strays) : False :=
      Keyed.find?_ne_none he (hlacks e.1 hmem)
    simpa using hnone

theorem forall_erase_iff (howned : ∀ key ∈ reservedKeys, key ∈ owned ∨ key ∈ strays)
    (hstrays : ∀ key ∈ strays, key ∈ reservedKeys ∧ key ∉ owned)
    : (∀ e ∈ owned.foldl (fun m key => Keyed.erase key m) members, e.1 ∉ reservedKeys)
        ↔ Json.Lacks strays (.object members) := by
  rw [Keyed.foldl_erase]
  constructor
  . intro hforeign name hname
    obtain ⟨hreserved, hother⟩ := hstrays name hname
    apply Keyed.find?_eq_none
    rintro e he rfl
    exact hforeign e (List.mem_filter.2 ⟨he, by simpa using hother⟩) hreserved
  . intro hlacks e he hreserved
    obtain ⟨hmem, hother⟩ := List.mem_filter.1 he
    rcases howned e.1 hreserved with hown | hstray
    . simp [hown] at hother
    . exact Keyed.find?_ne_none hmem (hlacks e.1 hstray)

theorem foreignMembers_eq_self_iff {extra : Json.Members}
    : foreignMembers extra = extra ↔ ∀ e ∈ extra, e.1 ∉ reservedKeys := by
  simp [foreignMembers, List.filter_eq_self]

end Strays

theorem Id.toJson_of_ofJson {v : Json} {id : Id} (h : ofJson v = .ok id) : id.toJson = v := by
  unfold ofJson at h
  split at h
  . cases h
    rfl
  . next n =>
    split at h
    . next i hint =>
      cases h
      cases n with
      | float x => cases hint
      | integer n hn =>
        simp only [Json.asInt64?, Option.ite_none_right_eq_some, Option.some.injEq] at hint
        obtain ⟨hlt, rfl⟩ := hint
        have heq : (Int64.ofInt n).toInt = n := Int64.toInt_ofInt_of_le hn.1 hlt
        simp [toJson, Json.ofInt64, heq]
    . cases h
  . cases h
    rfl
  . cases h

theorem version_of_checkVersion {v : Option Json} (h : checkVersion v = .ok ())
    : v = some (.string protocolVersion) := by
  unfold checkVersion at h
  split at h
  . split at h
    . next heq => rw [heq]
    . cases h
  . cases h

namespace Request

structure ReadFrom (members : Json.Members) (r : Request) : Prop where
  version : Keyed.find? "jsonrpc" members = some (.string protocolVersion)
  method : Keyed.find? "method" members = some (.string r.method)
  named : r.method ≠ ""
  params : Keyed.find? "params" members = r.params
  valid : r.hasValidParams
  id : Keyed.find? "id" members = if r.notification then none else some r.id.toJson
  silent : r.notification → r.id = .null
  extra : r.extra = furtherMembers members

theorem method_of_readMethod {v : Option Json} {method : String} (h : readMethod v = .ok method)
    : v = some (.string method) := by
  unfold readMethod at h
  split at h
  . split at h <;> cases h
    rfl
  . cases h

theorem hasValidParams_of_readParams {v : Option Json} {r : Request}
    (h : readParams v = .ok r.params) : r.hasValidParams := by
  unfold hasValidParams
  unfold readParams at h
  split at h
  . rw [← Except.ok.inj h]
  . rw [← Except.ok.inj h]
  . rw [← Except.ok.inj h]
  . cases h

theorem id_of_readId {v : Option Json} {notification : Bool} {id : Id}
    (h : readId v = .ok (notification, id))
    : v = (if notification then none else some id.toJson) ∧ (notification → id = .null) := by
  unfold readId at h
  split at h
  . cases h
    exact ⟨rfl, fun _ => rfl⟩
  . next v =>
    cases hid : Id.ofJson v with
    | error fault =>
      rw [hid] at h
      cases h
    | ok id =>
      rw [hid] at h
      cases h
      simp [Id.toJson_of_ofJson hid]

theorem readFrom_of_ofJson {v : Json} {r : Request} (h : ofJson v = .ok r)
    : ∃ members, v = .object members ∧ ReadFrom members r := by
  unfold ofJson at h
  split at h
  . next members =>
    obtain ⟨⟨⟩, hversion, h⟩ := bind_eq_ok h
    obtain ⟨method, hmethod, h⟩ := bind_eq_ok h
    obtain ⟨params, hparams, h⟩ := bind_eq_ok h
    obtain ⟨⟨notification, id⟩, hid, h⟩ := bind_eq_ok h
    cases h
    obtain ⟨hread, hsilent⟩ := id_of_readId hid
    exact ⟨members, rfl, version_of_checkVersion hversion, method_of_readMethod hmethod,
      named_of_readMethod hmethod, (eq_of_readParams hparams).symm,
      hasValidParams_of_readParams hparams, hread, hsilent, rfl⟩
  . cases h
  . cases h

def owned : List String :=
  ["jsonrpc", "method", "params", "id"]

def strays : List String :=
  ["result", "error"]

theorem reserved_of_owned : ∀ key ∈ owned, key ∈ reservedKeys := by
  decide

theorem reserved_of_mem_own (r : Request) : ∀ e ∈ r.ownMembers, e.1 ∈ reservedKeys :=
  fun e he => reserved_of_owned _ (key_of_mem_own e he)

theorem find?_stray {key : String} (hkey : key ∈ strays) (r : Request)
    : Keyed.find? key (Keyed.ofList r.members) = none := by
  have hreserved : ∀ key ∈ strays, key ∈ reservedKeys := by decide
  have hdisjoint : ∀ key ∈ strays, key ∉ owned := by decide
  rw [find?_members (hreserved key hkey)]
  apply Keyed.find?_eq_none
  rintro e he rfl
  exact hdisjoint _ hkey (key_of_mem_own e (List.mem_reverse.1 he))

namespace ReadFrom

variable {members : Json.Members} {r : Request}

theorem ascending (h : ReadFrom members r) (hmembers : Keyed.Ascending members)
    : Keyed.Ascending r.extra := by
  rw [h.extra]
  exact Keyed.ascending_foldl_erase _ hmembers

theorem forall_extra_iff (h : ReadFrom members r)
    : (∀ e ∈ r.extra, e.1 ∉ reservedKeys) ↔ Json.Lacks strays (.object members) := by
  rw [h.extra]
  exact forall_erase_iff (by decide) (by decide)

theorem mem_of_mem_extra (h : ReadFrom members r) {e : String × Json} (he : e ∈ r.extra)
    : e ∈ members := by
  rw [h.extra] at he
  exact Keyed.mem_of_mem_foldl_erase he

theorem find?_foreignMembers (h : ReadFrom members r) {key : String} (hkey : key ∉ reservedKeys)
    : Keyed.find? key (foreignMembers r.extra) = Keyed.find? key members := by
  have hown : key ∉ owned := fun hmem => hkey (reserved_of_owned key hmem)
  have hextra : r.extra = members.filter fun e => !owned.contains e.1 :=
    h.extra.trans (Keyed.foldl_erase owned members)
  unfold foreignMembers
  rw [hextra, Keyed.find?_filter key fun k => !reservedKeys.contains k,
    if_pos (by simpa using hkey), Keyed.find?_filter key fun k => !owned.contains k,
    if_pos (by simpa using hown)]

theorem toJson_eq (h : ReadFrom members r) (hmembers : Keyed.Ascending members)
    : r.toJson = .object (members.filter fun e => !strays.contains e.1) := by
  unfold toJson
  congr 1
  apply Keyed.eq_of_find? (Keyed.ascending_ofList _) (hmembers.sublist List.filter_sublist)
  intro key
  rw [Keyed.find?_filter key fun k => !strays.contains k]
  by_cases hstray : key ∈ strays
  . rw [find?_stray hstray, if_neg (by simpa using hstray)]
  . rw [if_pos (by simpa using hstray)]
    by_cases hkey : key ∈ reservedKeys
    . simp only [reservedKeys, strays, List.mem_cons, List.not_mem_nil, or_false, not_or]
        at hkey hstray
      rcases hkey with rfl | rfl | rfl | rfl | rfl | rfl
      . rw [find?_version, h.version]
      . rw [find?_id, h.id]
      . rw [find?_method, h.method]
      . rw [find?_params, h.params]
      . exact absurd rfl hstray.1
      . exact absurd rfl hstray.2
    . have hforeign := find?_foreign_of_not_mem hkey r.reserved_of_mem_own (h.ascending hmembers)
      exact hforeign.trans (h.find?_foreignMembers hkey)

theorem id_of_notification (h : ReadFrom members r)
    : (if r.notification then .null else r.id) = r.id := by
  split
  . next hnotification => rw [h.silent hnotification]
  . rfl

theorem ofJson_toJson (h : ReadFrom members r) (hmembers : Keyed.Ascending members)
    : ofJson r.toJson = .ok { r with extra := foreignMembers r.extra } := by
  have hmethod : readMethod (some (.string r.method)) = .ok r.method := by
    simp [readMethod, h.named]
  rw [Request.ofJson_toJson, furtherMembers_members (h.ascending hmembers), hmethod,
    readParams_of_valid h.valid, h.id_of_notification]
  rfl

theorem faithful (h : ReadFrom members r) (hmembers : Json.Faithful Json.maxDepth (.object members))
    : r.Faithful := by
  have hpart {e : String × Json} (he : e ∈ members) : Json.Faithful (Json.maxDepth - 1) e.2 :=
    Json.Faithful.member hmembers he
  refine ⟨?_, ?_, h.ascending (Json.ascending_of_sorted hmembers.sorted)⟩
  . intro params hparams
    exact hpart (Keyed.mem_of_find? (h.params.trans hparams))
  . intro e he
    exact hpart (h.mem_of_mem_extra (List.mem_filter.1 he).1)

theorem decode_encode (h : ReadFrom members r)
    (hmembers : Json.Faithful Json.maxDepth (.object members))
    : decode r.encode = .ok { r with extra := foreignMembers r.extra } := by
  rw [decode_encode_of_valid (h.faithful hmembers) h.named h.valid, h.id_of_notification]

end ReadFrom

end Request

def ErrorObject.DataFrom (v : Json) (data : Option Json) : Prop :=
  ∀ value, data = some value → value ≠ .null ∧
    ((∃ members key, v = .object members ∧ (key, value) ∈ members) ∨
      ∃ items, v = .array items ∧ value ∈ items)

namespace ErrorObject

theorem value_of_toOption {v value : Json} (h : Json.toOption Json.toJson v = .ok (some value))
    : value = v ∧ v ≠ .null := by
  unfold Json.toOption Json.toJson at h
  split at h
  . cases h
  . next hne =>
    cases h
    exact ⟨rfl, hne⟩

theorem Fields.data_of_read {v : Json} {members : Json.Members} (hv : v = .object members)
    {f f' : Fields} {key : String} {value : Json} (hmem : (key, value) ∈ members)
    (hf : DataFrom v f.data) (h : f.read key value = .ok f') : DataFrom v f'.data := by
  unfold Fields.read at h
  split at h
  . obtain ⟨code, -, h⟩ := bind_eq_ok h
    cases h
    exact hf
  . split at h
    . obtain ⟨message, -, h⟩ := bind_eq_ok h
      cases h
      exact hf
    . split at h
      . obtain ⟨data, hdata, h⟩ := bind_eq_ok h
        cases h
        rintro value' rfl
        obtain ⟨rfl, hne⟩ := value_of_toOption hdata
        exact ⟨hne, .inl ⟨members, key, hv, hmem⟩⟩
      . cases h
        exact hf

theorem dataFrom_of_foldlM {v : Json} {members rest : Json.Members} (hv : v = .object members)
    (hrest : ∀ e ∈ rest, e ∈ members) {f f' : Fields} (hf : DataFrom v f.data)
    (h : rest.foldlM (fun f e => f.read e.1 e.2) f = .ok f') : DataFrom v f'.data := by
  induction rest generalizing f with
  | nil =>
    cases h
    exact hf
  | cons e rest ih =>
    rw [List.foldlM_cons] at h
    obtain ⟨next, hnext, h⟩ := bind_eq_ok h
    rw [List.forall_mem_cons] at hrest
    exact ih hrest.2 (Fields.data_of_read hv hrest.1 hf hnext) h

theorem dataFrom_of_ofJson {v : Json} {e : ErrorObject} (h : ofJson v = .ok e)
    : DataFrom v e.data := by
  unfold ofJson at h
  split at h
  . next members =>
    obtain ⟨f, hf, h⟩ := bind_eq_ok h
    have hdata := dataFrom_of_foldlM rfl (fun e he => he) (by simp [DataFrom]) hf
    unfold Fields.finish at h
    split at h <;> cases h
    exact hdata
  . cases h
  . obtain ⟨code, -, h⟩ := bind_eq_ok h
    cases h
  . obtain ⟨code, -, h⟩ := bind_eq_ok h
    obtain ⟨message, -, h⟩ := bind_eq_ok h
    cases h
    simp [DataFrom]
  . next code message data rest =>
    obtain ⟨code', -, h⟩ := bind_eq_ok h
    obtain ⟨message', -, h⟩ := bind_eq_ok h
    obtain ⟨data', hdata, h⟩ := bind_eq_ok h
    dsimp only at h
    split at h
    . cases h
      rintro value rfl
      obtain ⟨rfl, hne⟩ := value_of_toOption hdata
      exact ⟨hne, .inr ⟨_, rfl, by simp⟩⟩
    . cases h
  . cases h

end ErrorObject

namespace Response

structure ReadFrom (members : Json.Members) (r : Response) : Prop where
  result : ∀ value, r.outcome = .result value → ("result", value) ∈ members
  error : ∀ object, r.outcome = .error object →
    ∃ v, ("error", v) ∈ members ∧ ErrorObject.DataFrom v object.data
  extra : r.extra = furtherMembers members

theorem outcome_of_readOutcome {result error : Option Json} {outcome : Outcome}
    (h : readOutcome result error = .ok outcome)
    : (∀ value, outcome = .result value → result = some value) ∧
        ∀ object, outcome = .error object →
          ∃ v, error = some v ∧ ErrorObject.DataFrom v object.data := by
  unfold readOutcome at h
  split at h
  case h_1 | h_2 =>
    cases h
    simp
  case h_3 | h_4 =>
    split at h
    . next object hread =>
      cases h
      simpa using ErrorObject.dataFrom_of_ofJson hread
    . cases h
  case h_5 => cases h

theorem readFrom_of_ofJson {v : Json} {r : Response} (h : ofJson v = .ok r)
    : ∃ members, v = .object members ∧ ReadFrom members r := by
  unfold ofJson at h
  split at h
  . next members =>
    obtain ⟨-, -, h⟩ := bind_eq_ok h
    obtain ⟨id, -, h⟩ := bind_eq_ok h
    obtain ⟨outcome, houtcome, h⟩ := bind_eq_ok h
    cases h
    obtain ⟨hresult, herror⟩ := outcome_of_readOutcome houtcome
    refine ⟨members, rfl, ?_, ?_, rfl⟩
    . intro value hvalue
      exact Keyed.mem_of_find? (hresult value hvalue)
    . intro object hobject
      obtain ⟨v, hv, hdata⟩ := herror object hobject
      exact ⟨v, Keyed.mem_of_find? hv, hdata⟩
  . cases h

def strays : List String :=
  ["method", "params"]

namespace ReadFrom

variable {members : Json.Members} {r : Response}

theorem ascending (h : ReadFrom members r) (hmembers : Keyed.Ascending members)
    : Keyed.Ascending r.extra := by
  rw [h.extra]
  exact Keyed.ascending_foldl_erase _ hmembers

theorem forall_extra_iff (h : ReadFrom members r)
    : (∀ e ∈ r.extra, e.1 ∉ reservedKeys) ↔ Json.Lacks strays (.object members) := by
  rw [h.extra]
  exact forall_erase_iff (by decide) (by decide)

theorem mem_of_mem_extra (h : ReadFrom members r) {e : String × Json} (he : e ∈ r.extra)
    : e ∈ members := by
  rw [h.extra] at he
  exact Keyed.mem_of_mem_foldl_erase he

theorem asRead_eq (h : ReadFrom members r) : r.outcome.asRead = r.outcome := by
  cases houtcome : r.outcome with
  | result value => rfl
  | error object =>
    obtain ⟨v, -, hdata⟩ := h.error object houtcome
    have hkept : object.data.filter (· ≠ .null) = object.data := by
      cases hobject : object.data with
      | none => rfl
      | some value => simp [Option.filter, (hdata value hobject).1]
    unfold Outcome.asRead
    dsimp only
    rw [hkept]

theorem ofJson_toJson (h : ReadFrom members r) (hmembers : Keyed.Ascending members)
    : ofJson r.toJson = .ok { r with extra := foreignMembers r.extra } := by
  have hfurther : furtherMembers (Keyed.ofList (r.ownMembers ++ foreignMembers r.extra))
      = foreignMembers r.extra := foldl_erase_own (by decide) key_of_mem_own (h.ascending hmembers)
  rw [Response.ofJson_toJson, hfurther, h.asRead_eq]

theorem faithful (h : ReadFrom members r) (hmembers : Json.Faithful Json.maxDepth (.object members))
    : r.Faithful := by
  have hpart {e : String × Json} (he : e ∈ members) : Json.Faithful (Json.maxDepth - 1) e.2 :=
    Json.Faithful.member hmembers he
  refine ⟨?_, ?_, ?_, h.ascending (Json.ascending_of_sorted hmembers.sorted)⟩
  . intro value hvalue
    exact hpart (h.result value hvalue)
  . intro object data hobject hdata
    obtain ⟨v, hv, hfrom⟩ := h.error object hobject
    have herror : Json.Faithful (Json.maxDepth - 2 + 1) v := hpart hv
    obtain ⟨-, ⟨parts, key, rfl, hmem⟩ | ⟨items, rfl, hmem⟩⟩ := hfrom data hdata
    . exact herror.member hmem
    . exact herror.item hmem
  . intro e he
    exact hpart (h.mem_of_mem_extra (List.mem_filter.1 he).1)

theorem decodeBatch_encode (h : ReadFrom members r)
    (hmembers : Json.Faithful Json.maxDepth (.object members))
    : decodeBatch r.encode = .ok [{ r with extra := foreignMembers r.extra }] := by
  rw [decodeBatch_encode_of_faithful (h.faithful hmembers), h.asRead_eq]

end ReadFrom

end Response

/--
A request that was read from a value is written as this value without the members `result` and
`error`, and a message that was read is read again as what it was, without such further members as
the other kind of message owns. So exactly if the value has none of these, no further member has a
reserved name, the message is read again as it was, and a request is written as the very value. The
same goes for the bytes, where the value reads back.
-/
theorem read_messages_kept {v : Json} (hsorted : v.sorted = v)
    : (∀ r, Request.ofJson v = .ok r →
        (∃ members, v = .object members ∧
          r.toJson = .object (members.filter fun e => !(["result", "error"].contains e.1))) ∧
        Request.ofJson r.toJson = .ok { r with extra := foreignMembers r.extra } ∧
        ((∀ e ∈ r.extra, e.1 ∉ reservedKeys) ↔ v.Lacks ["result", "error"]) ∧
        (Request.ofJson r.toJson = .ok r ↔ v.Lacks ["result", "error"]) ∧
        (r.toJson = v ↔ v.Lacks ["result", "error"]) ∧
        (Json.Readable Json.maxDepth v →
          Request.decode r.encode = .ok { r with extra := foreignMembers r.extra })) ∧
      ∀ r, Response.ofJson v = .ok r →
        Response.ofJson r.toJson = .ok { r with extra := foreignMembers r.extra } ∧
        ((∀ e ∈ r.extra, e.1 ∉ reservedKeys) ↔ v.Lacks ["method", "params"]) ∧
        (Response.ofJson r.toJson = .ok r ↔ v.Lacks ["method", "params"]) ∧
        (Json.Readable Json.maxDepth v →
          Response.decodeBatch r.encode = .ok [{ r with extra := foreignMembers r.extra }]) := by
  constructor
  . intro r h
    obtain ⟨members, rfl, hread⟩ := Request.readFrom_of_ofJson h
    have hascending := Json.ascending_of_sorted hsorted
    have hagain := hread.ofJson_toJson hascending
    have hwritten := hread.toJson_eq hascending
    refine ⟨⟨members, rfl, hwritten⟩, hagain, hread.forall_extra_iff, ?_, ?_, ?_⟩
    . refine Iff.trans ?_ hread.forall_extra_iff
      rw [hagain, ← foreignMembers_eq_self_iff]
      constructor
      . intro heq
        exact congrArg Request.extra (Except.ok.inj heq)
      . intro heq
        rw [heq]
    . rw [hwritten, Json.object.injEq]
      exact filter_eq_self_iff
    . intro hreadable
      exact hread.decode_encode ⟨hreadable, hsorted⟩
  . intro r h
    obtain ⟨members, rfl, hread⟩ := Response.readFrom_of_ofJson h
    have hagain := hread.ofJson_toJson (Json.ascending_of_sorted hsorted)
    refine ⟨hagain, hread.forall_extra_iff, ?_, ?_⟩
    . refine Iff.trans ?_ hread.forall_extra_iff
      rw [hagain, ← foreignMembers_eq_self_iff]
      constructor
      . intro heq
        exact congrArg Response.extra (Except.ok.inj heq)
      . intro heq
        rw [heq]
    . intro hreadable
      exact hread.decodeBatch_encode ⟨hreadable, hsorted⟩

def tracedRequest : Json :=
  .object [("id", .string "a"), ("jsonrpc", .string "2.0"), ("method", .string "m"),
    ("trace", .object [("span", .ofInt64 3)])]

def failedCall : Json :=
  .object [("error", .array [.ofInt64 7, .string "no", .string "why"]), ("id", .null),
    ("jsonrpc", .string "2.0"), ("result", .null), ("trace", .bool true)]

theorem read_messages_kept_of_traced
    : (∃ r, Request.ofJson tracedRequest = .ok r ∧ r.toJson = tracedRequest ∧
        Request.decode r.encode = .ok { r with extra := foreignMembers r.extra }) ∧
      ∃ r, Response.ofJson failedCall = .ok r ∧ Response.ofJson r.toJson = .ok r := by
  constructor
  . have hsorted : tracedRequest.sorted = tracedRequest := by decide +kernel
    obtain ⟨r, hr⟩ : ∃ r, Request.ofJson tracedRequest = .ok r := ⟨_, rfl⟩
    obtain ⟨-, -, -, -, hwritten, hbytes⟩ := (read_messages_kept hsorted).1 r hr
    refine ⟨r, hr, hwritten.2 (by decide +kernel), hbytes ?_⟩
    refine .object _ ?_
    simp only [List.forall_mem_cons]
    refine ⟨.string _, .string _, .string _, .object _ ?_, by simp⟩
    simp only [List.forall_mem_cons]
    exact ⟨(Json.faithful_ofInt64 _ 3).readable, by simp⟩
  . have hsorted : failedCall.sorted = failedCall := by decide +kernel
    obtain ⟨r, hr⟩ : ∃ r, Response.ofJson failedCall = .ok r := ⟨_, rfl⟩
    obtain ⟨-, -, hagain, -⟩ := (read_messages_kept hsorted).2 r hr
    exact ⟨r, hr, hagain.2 (by decide +kernel)⟩

def strayRequest : Json :=
  .object [("jsonrpc", .string "2.0"), ("method", .string "m"), ("result", .ofInt64 1)]

def strayResponse : Json :=
  .object [("id", .ofInt64 1), ("jsonrpc", .string "2.0"), ("method", .string "m"),
    ("result", .ofInt64 2)]

theorem stray_members_lost
    : (∃ r, Request.ofJson strayRequest = .ok r ∧ r.extra = [("result", .ofInt64 1)] ∧
        r.toJson ≠ strayRequest ∧ Request.ofJson r.toJson ≠ .ok r) ∧
      ∃ r, Response.ofJson strayResponse = .ok r ∧ r.extra = [("method", .string "m")] ∧
        Response.ofJson r.toJson ≠ .ok r := by
  exact ⟨⟨_, rfl, by decide +kernel⟩, ⟨_, rfl, by decide +kernel⟩⟩

end JsonRpc
