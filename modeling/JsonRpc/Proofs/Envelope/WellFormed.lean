import JsonRpc.Proofs.Envelope.ForeignMembers

/-!
Which values are requests. Main statement: a message is read as a request exactly if it is the text
of an object that is well formed as one, and a message that is no JSON text is told apart from one
that is no request.
-/

namespace JsonRpc

theorem bind_eq_error {ε α β : Type} {x : Except ε α} {f : α → Except ε β} {e : ε}
    (h : (do f (← x)) = .error e) : x = .error e ∨ ∃ a, x = .ok a ∧ f a = .error e := by
  cases x with
  | error e' =>
    cases h
    exact .inl rfl
  | ok a => exact .inr ⟨a, rfl, h⟩

theorem checkVersion_iff {v : Option Json}
    : checkVersion v = .ok () ↔ v = some (.string protocolVersion) := by
  constructor
  . exact version_of_checkVersion
  . rintro rfl
    exact Request.checkVersion_protocolVersion

theorem checkVersion_error {v : Option Json} {error : ProtocolError}
    (h : checkVersion v = .error error) : ∃ reason, error = .invalidMessage reason := by
  unfold checkVersion at h
  split at h
  . split at h <;> cases h
    exact ⟨_, rfl⟩
  . cases h
    exact ⟨_, rfl⟩

inductive Json.IsIdentifier : Json → Prop where
  | null : IsIdentifier .null
  | integer (n : Int) (hn : -(1 <<< 63 : Nat) ≤ n ∧ n < (1 <<< 64 : Nat))
    (signed : n < (1 <<< 63 : Nat)) : IsIdentifier (.number (.integer n hn))
  | string (s : String) : IsIdentifier (.string s)

namespace Id

theorem isIdentifier_toJson (id : Id) : id.toJson.IsIdentifier := by
  cases id with
  | null => exact .null
  | int n => exact .integer _ _ (Int64.toInt_lt n)
  | text s => exact .string s

theorem exists_of_isIdentifier {v : Json} (h : v.IsIdentifier) : ∃ id, ofJson v = .ok id := by
  cases h with
  | null => exact ⟨.null, rfl⟩
  | integer n hn signed =>
    refine ⟨.int (Int64.ofInt n), ?_⟩
    simp only [ofJson, Json.asInt64?, if_pos signed]
  | string s => exact ⟨.text s, rfl⟩

theorem isIdentifier_of_ofJson {v : Json} {id : Id} (h : ofJson v = .ok id) : v.IsIdentifier := by
  rw [← toJson_of_ofJson h]
  exact id.isIdentifier_toJson

theorem ofJson_error {v : Json} {error : ProtocolError} (h : ofJson v = .error error)
    : ∃ reason, error = .invalidMessage reason := by
  unfold ofJson at h
  split at h
  . cases h
  . split at h <;> cases h
    exact ⟨_, rfl⟩
  . cases h
  . cases h
    exact ⟨_, rfl⟩

end Id

namespace Request

structure WellFormed (members : Json.Members) : Prop where
  version : Keyed.find? "jsonrpc" members = some (.string "2.0")
  method : ∃ method, Keyed.find? "method" members = some (.string method) ∧ method ≠ ""
  params : ∀ v, Keyed.find? "params" members = some v →
    (∃ items, v = .array items) ∨ ∃ parts, v = .object parts
  id : ∀ v, Keyed.find? "id" members = some v → v.IsIdentifier

theorem readMethod_error {v : Option Json} {error : ProtocolError}
    (h : readMethod v = .error error) : ∃ reason, error = .invalidMessage reason := by
  unfold readMethod at h
  split at h
  . split at h <;> cases h
    exact ⟨_, rfl⟩
  . cases h
    exact ⟨_, rfl⟩

theorem readParams_error {v : Option Json} {error : ProtocolError}
    (h : readParams v = .error error) : ∃ reason, error = .invalidMessage reason := by
  unfold readParams at h
  split at h <;> cases h
  exact ⟨_, rfl⟩

theorem readId_error {v : Option Json} {error : ProtocolError}
    (h : readId v = .error error) : ∃ reason, error = .invalidMessage reason := by
  unfold readId at h
  split at h
  . cases h
  . next v =>
    cases hid : Id.ofJson v with
    | ok id =>
      rw [hid] at h
      cases h
    | error fault =>
      rw [hid] at h
      cases h
      exact Id.ofJson_error hid

theorem ofJson_error {v : Json} {error : ProtocolError} (h : ofJson v = .error error)
    : ∃ reason, error = .invalidMessage reason := by
  unfold ofJson at h
  split at h
  . next members =>
    rcases bind_eq_error h with h | ⟨-, -, h⟩
    . exact checkVersion_error h
    rcases bind_eq_error h with h | ⟨method, -, h⟩
    . exact readMethod_error h
    rcases bind_eq_error h with h | ⟨params, -, h⟩
    . exact readParams_error h
    rcases bind_eq_error h with h | ⟨id, -, h⟩
    . exact readId_error h
    . cases h
  . cases h
    exact ⟨_, rfl⟩
  . cases h
    exact ⟨_, rfl⟩

theorem readParams_of_structured {params : Option Json}
    (h : ∀ v, params = some v → (∃ items, v = .array items) ∨ ∃ parts, v = .object parts)
    : readParams params = .ok params := by
  cases params with
  | none => rfl
  | some v => obtain ⟨items, rfl⟩ | ⟨parts, rfl⟩ := h v rfl <;> rfl

theorem structured_of_hasValidParams {r : Request} (h : r.hasValidParams) {v : Json}
    (hv : r.params = some v) : (∃ items, v = .array items) ∨ ∃ parts, v = .object parts := by
  unfold hasValidParams at h
  rw [hv] at h
  split at h
  . next heq => cases heq
  . next items heq => exact .inl ⟨items, Option.some.inj heq⟩
  . next parts heq => exact .inr ⟨parts, Option.some.inj heq⟩
  . cases h

theorem exists_readId {id : Option Json} (h : ∀ v, id = some v → v.IsIdentifier)
    : ∃ read, readId id = .ok read := by
  cases id with
  | none => exact ⟨_, rfl⟩
  | some v =>
    obtain ⟨id, hid⟩ := Id.exists_of_isIdentifier (h v rfl)
    exact ⟨(false, id), by simp [readId, hid, Except.map]⟩

namespace WellFormed

variable {members : Json.Members}

theorem exists_ofJson (h : WellFormed members) : ∃ r, ofJson (.object members) = .ok r := by
  obtain ⟨method, hmethod, hnamed⟩ := h.method
  obtain ⟨⟨notification, id⟩, hid⟩ := exists_readId h.id
  have hread : readMethod (Keyed.find? "method" members) = .ok method := by
    simp [readMethod, hmethod, hnamed]
  unfold ofJson
  simp only [checkVersion_iff.2 h.version, hread, readParams_of_structured h.params, hid]
  exact ⟨_, rfl⟩

theorem of_readFrom {r : Request} (h : ReadFrom members r) : WellFormed members := by
  refine ⟨h.version, ⟨r.method, h.method, h.named⟩, ?_, ?_⟩
  . intro v hv
    exact structured_of_hasValidParams h.valid (h.params.symm.trans hv)
  . intro v hv
    rw [h.id, Option.ite_none_left_eq_some] at hv
    obtain ⟨-, hv⟩ := hv
    rw [← Option.some.inj hv]
    exact r.id.isIdentifier_toJson

end WellFormed

theorem exists_ofJson_iff {v : Json}
    : (∃ r, ofJson v = .ok r) ↔ ∃ members, v = .object members ∧ WellFormed members := by
  constructor
  . rintro ⟨r, hr⟩
    obtain ⟨members, rfl, hread⟩ := readFrom_of_ofJson hr
    exact ⟨members, rfl, .of_readFrom hread⟩
  . rintro ⟨members, rfl, hformed⟩
    exact hformed.exists_ofJson

theorem exists_reason_iff {v : Json}
    : (∃ reason, ofJson v = .error (.invalidMessage reason))
        ↔ ¬∃ members, v = .object members ∧ WellFormed members := by
  rw [← exists_ofJson_iff]
  cases hv : ofJson v with
  | ok r => simp
  | error error =>
    obtain ⟨reason, rfl⟩ := ofJson_error hv
    simp

theorem code_of_decode {message : Bytes} {error : ProtocolError}
    (h : decode message = .error error)
    : error.code = if Json.decode? message = none then ErrorCode.parseError
        else ErrorCode.invalidRequest := by
  unfold decode at h
  split at h
  . next hnone =>
    cases h
    simp [hnone, ProtocolError.code]
  . next v hsome =>
    obtain ⟨reason, rfl⟩ := ofJson_error h
    simp [hsome, ProtocolError.code]

namespace ReadFrom

variable {members : Json.Members} {r : Request}

theorem notification_iff (h : ReadFrom members r)
    : r.notification ↔ Keyed.find? "id" members = none := by
  rw [h.id]
  cases r.notification <;> simp

theorem mem_extra_iff (h : ReadFrom members r) {e : String × Json} (he : e.1 ∉ reservedKeys)
    : e ∈ r.extra ↔ e ∈ members := by
  have hown : e.1 ∉ owned := fun hmem => he (reserved_of_owned _ hmem)
  have hextra : r.extra = members.filter fun e => !owned.contains e.1 :=
    h.extra.trans (Keyed.foldl_erase owned members)
  rw [hextra, List.mem_filter]
  simp [hown]

end ReadFrom

/--
A message that is no JSON text is a parse error, one whose value is not well formed as a request is
an invalid request, and all others are read. What is read then is what the members say: without an
identifier it is a notification, with a null one it is not, and the members whose names the envelope
does not own are all kept.
-/
theorem decode_iff_wellFormed (message : Bytes)
    : ((∃ fault, decode message = .error (.decode fault)) ↔ Json.decode? message = none) ∧
        ((∃ r, decode message = .ok r)
          ↔ ∃ members, Json.decode? message = some (.object members) ∧ WellFormed members) ∧
        ((∃ reason, decode message = .error (.invalidMessage reason))
          ↔ ∃ v, Json.decode? message = some v ∧
              ¬∃ members, v = .object members ∧ WellFormed members) ∧
        (∀ error, decode message = .error error →
          error.code = if Json.decode? message = none then -32700 else -32600) ∧
        ∀ r, decode message = .ok r →
          ∃ members, Json.decode? message = some (.object members) ∧
            (r.notification ↔ Keyed.find? "id" members = none) ∧
            Keyed.find? "id" members = (if r.notification then none else some r.id.toJson) ∧
            Keyed.find? "method" members = some (.string r.method) ∧
            Keyed.find? "params" members = r.params ∧
            ∀ e : String × Json,
              e.1 ∉ ["jsonrpc", "id", "method", "params", "result", "error"] →
                (e ∈ r.extra ↔ e ∈ members) := by
  refine ⟨?_, ?_, ?_, fun error herror => code_of_decode herror, ?_⟩
  . unfold decode
    cases hv : Json.decode? message with
    | none => simp
    | some v =>
      cases hread : ofJson v with
      | ok r => simp [hread]
      | error error =>
        obtain ⟨reason, rfl⟩ := ofJson_error hread
        simp [hread]
  . unfold decode
    cases hv : Json.decode? message with
    | none => simp
    | some v => simpa using exists_ofJson_iff
  . unfold decode
    cases hv : Json.decode? message with
    | none => simp
    | some v => simpa using exists_reason_iff
  . intro r hr
    unfold decode at hr
    split at hr
    . cases hr
    . next v hv =>
      obtain ⟨members, rfl, hread⟩ := readFrom_of_ofJson hr
      exact ⟨members, hv, hread.notification_iff, hread.id, hread.method, hread.params,
        fun e he => hread.mem_extra_iff he⟩

def nullCall : Bytes :=
  Text.Utf8.encode
    "\x7b\"jsonrpc\":\"2.0\",\"id\":null,\"method\":\"m\",\"trace\":[3],\"result\":1\x7d"

def largeCall : Bytes :=
  Text.Utf8.encode
    "\x7b\"jsonrpc\":\"2.0\",\"id\":9223372036854775808,\"method\":\"m\"\x7d"

theorem decode_iff_wellFormed_of_calls
    : (∃ r, decode nullCall = .ok r ∧ r.notification = false ∧
        ("trace", .array [.ofInt64 3]) ∈ r.extra) ∧
      ∃ error, decode largeCall = .error error ∧ error.code = -32600 := by
  constructor
  . have hvalue : Json.decode? nullCall = some (.object [("id", .null), ("jsonrpc", .string "2.0"),
        ("method", .string "m"), ("result", .ofInt64 1), ("trace", .array [.ofInt64 3])]) := by
      decide +kernel
    obtain ⟨-, hok, -, -, hread⟩ := decode_iff_wellFormed nullCall
    have hformed : WellFormed [("id", .null), ("jsonrpc", .string "2.0"), ("method", .string "m"),
        ("result", .ofInt64 1), ("trace", .array [.ofInt64 3])] :=
      ⟨rfl, ⟨"m", rfl, by decide⟩, by simp [Keyed.find?],
        by simpa [Keyed.find?] using .null⟩
    obtain ⟨r, hr⟩ := hok.2 ⟨_, hvalue, hformed⟩
    obtain ⟨members, hmembers, hnotification, -, -, -, hextra⟩ := hread r hr
    rw [hvalue, Option.some.injEq, Json.object.injEq] at hmembers
    subst hmembers
    refine ⟨r, hr, ?_, (hextra _ (by decide)).2 (by simp)⟩
    simpa [Keyed.find?] using hnotification
  . have hvalue : Json.decode? largeCall = some (.object [("id", .ofUInt64 9223372036854775808),
        ("jsonrpc", .string "2.0"), ("method", .string "m")]) := by
      decide +kernel
    obtain ⟨-, -, hinvalid, hcode, -⟩ := decode_iff_wellFormed largeCall
    have hunformed : ¬WellFormed [("id", .ofUInt64 9223372036854775808),
        ("jsonrpc", .string "2.0"), ("method", .string "m")] := by
      intro hformed
      have hlarge : ¬((9223372036854775808 : UInt64).toNat : Int) < (1 <<< 63 : Nat) := by decide
      cases hformed.id _ rfl with
      | integer n hn signed => exact hlarge signed
    obtain ⟨reason, hreason⟩ := hinvalid.2 ⟨_, hvalue, by
      rintro ⟨_, ⟨⟩, hformed⟩
      exact hunformed hformed⟩
    refine ⟨_, hreason, ?_⟩
    rw [hcode _ hreason, if_neg (by simp [hvalue])]

end Request

end JsonRpc
