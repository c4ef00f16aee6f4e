import JsonRpc.Proofs.Envelope.WellFormed

/-!
Which values are responses. Main statement: exactly the objects that carry one outcome beside a
version and an identifier, where a null member is taken for none if this leaves one outcome.
-/

namespace JsonRpc

theorem Json.toInt64_eq_ok_iff {v : Json} {n : Int64} : v.toInt64 = .ok n ↔ v = .ofInt64 n := by
  constructor
  . intro h
    unfold toInt64 at h
    split at h
    . next m hm =>
      split at h
      . next hlt =>
        cases h
        have heq : (Int64.ofInt m).toInt = m := Int64.toInt_ofInt_of_le hm.1 hlt
        simp [ofInt64, heq]
      . cases h
    . cases h
  . rintro rfl
    exact ErrorCode.ofJson_ofInt64 n

theorem Json.ofInt64_inj {n m : Int64} (h : ofInt64 n = .ofInt64 m) : n = m := by
  have hread := ErrorCode.ofJson_ofInt64 n
  rw [h, ErrorCode.ofJson_ofInt64] at hread
  exact (Except.ok.inj hread).symm

theorem Json.toText_eq_ok_iff {v : Json} {s : String} : v.toText = .ok s ↔ v = .string s := by
  constructor
  . intro h
    unfold toText at h
    split at h <;> cases h
    rfl
  . rintro rfl
    rfl

theorem Json.toOption_toJson (v : Json)
    : toOption toJson v = .ok ((some v).filter (· ≠ .null)) := by
  cases v <;> simp [toOption, toJson, Except.map, Option.filter]

namespace ErrorObject

inductive Reads : Json → ErrorObject → Prop where
  | object {parts : Json.Members} {e : ErrorObject}
    (code : Keyed.find? "code" parts = some (.ofInt64 e.code))
    (message : Keyed.find? "message" parts = some (.string e.message))
    (data : e.data = (Keyed.find? "data" parts).filter (· ≠ .null)) : Reads (.object parts) e
  | pair (code : ErrorCode) (message : String) :
    Reads (.array [.ofInt64 code, .string message]) ⟨code, message, none⟩
  | triple (code : ErrorCode) (message : String) (data : Json) :
    Reads (.array [.ofInt64 code, .string message, data])
      ⟨code, message, (some data).filter (· ≠ .null)⟩

structure Fits (e : String × Json) : Prop where
  code : e.1 = "code" → ∃ n, e.2 = .ofInt64 n
  message : e.1 = "message" → ∃ s, e.2 = .string s

namespace Fields

theorem read_eq {f f' : Fields} {e : String × Json} (h : f.read e.1 e.2 = .ok f')
    : Fits e ∧
        f'.code.map Json.ofInt64 = (Keyed.find? "code" [e]).or (f.code.map Json.ofInt64) ∧
        f'.message.map Json.string
          = (Keyed.find? "message" [e]).or (f.message.map Json.string) ∧
        f'.data = (Keyed.find? "data" [e]).elim f.data fun v => (some v).filter (· ≠ .null) := by
  obtain ⟨key, v⟩ := e
  unfold read at h
  split at h
  . next hkey =>
    obtain ⟨code, hcode, h⟩ := bind_eq_ok h
    cases h
    obtain rfl := Json.toInt64_eq_ok_iff.1 hcode
    subst hkey
    exact ⟨⟨fun _ => ⟨code, rfl⟩, by simp⟩, by simp [Keyed.find?]⟩
  . next hcode =>
    split at h
    . next hkey =>
      obtain ⟨message, hmessage, h⟩ := bind_eq_ok h
      cases h
      obtain rfl := Json.toText_eq_ok_iff.1 hmessage
      subst hkey
      exact ⟨⟨by simp, fun _ => ⟨message, rfl⟩⟩, by simp [Keyed.find?]⟩
    . next hmessage =>
      split at h
      . next hkey =>
        obtain ⟨data, hdata, h⟩ := bind_eq_ok h
        cases h
        rw [Json.toOption_toJson] at hdata
        cases hdata
        subst hkey
        exact ⟨⟨by simp, by simp⟩, by simp [Keyed.find?]⟩
      . next hdata =>
        cases h
        exact ⟨⟨fun hkey => absurd hkey hcode, fun hkey => absurd hkey hmessage⟩,
          by simp [Keyed.find?, hcode, hmessage, hdata]⟩

theorem exists_read {e : String × Json} (h : Fits e) (f : Fields)
    : ∃ f', f.read e.1 e.2 = .ok f' := by
  obtain ⟨key, v⟩ := e
  unfold read
  split
  . next hkey =>
    obtain ⟨n, rfl⟩ := h.code hkey
    rw [ErrorCode.ofJson_ofInt64]
    exact ⟨_, rfl⟩
  . split
    . next hkey =>
      obtain ⟨s, rfl⟩ := h.message hkey
      exact ⟨_, rfl⟩
    . split
      . rw [Json.toOption_toJson]
        exact ⟨_, rfl⟩
      . exact ⟨_, rfl⟩

theorem foldlM_read {parts : Json.Members} {f f' : Fields}
    (h : parts.foldlM (fun f e => f.read e.1 e.2) f = .ok f')
    : (∀ e ∈ parts, Fits e) ∧
        f'.code.map Json.ofInt64
          = (Keyed.find? "code" parts.reverse).or (f.code.map Json.ofInt64) ∧
        f'.message.map Json.string
          = (Keyed.find? "message" parts.reverse).or (f.message.map Json.string) ∧
        f'.data = (Keyed.find? "data" parts.reverse).elim f.data
          fun v => (some v).filter (· ≠ .null) := by
  induction parts generalizing f with
  | nil =>
    cases h
    simp [Keyed.find?]
  | cons e parts ih =>
    rw [List.foldlM_cons] at h
    obtain ⟨next, hnext, h⟩ := bind_eq_ok h
    obtain ⟨hfits, hcode, hmessage, hdata⟩ := read_eq hnext
    obtain ⟨hrest, hcodes, hmessages, hdatas⟩ := ih h
    rw [List.forall_mem_cons, List.reverse_cons, Keyed.find?_append, Keyed.find?_append,
      Keyed.find?_append, Option.or_assoc, Option.or_assoc, ← hcode, ← hmessage]
    refine ⟨⟨hfits, hrest⟩, hcodes, hmessages, ?_⟩
    rw [hdatas, hdata]
    cases Keyed.find? "data" parts.reverse <;> rfl

theorem exists_foldlM {parts : Json.Members} (h : ∀ e ∈ parts, Fits e) (f : Fields)
    : ∃ f', parts.foldlM (fun f e => f.read e.1 e.2) f = .ok f' := by
  induction parts generalizing f with
  | nil => exact ⟨f, rfl⟩
  | cons e parts ih =>
    rw [List.forall_mem_cons] at h
    obtain ⟨next, hnext⟩ := exists_read h.1 f
    obtain ⟨f', hrest⟩ := ih h.2 next
    refine ⟨f', ?_⟩
    rw [List.foldlM_cons, hnext]
    exact hrest

theorem finish_eq_ok_iff {f : Fields} {e : ErrorObject}
    : f.finish = .ok e ↔ f.code = some e.code ∧ f.message = some e.message ∧ f.data = e.data := by
  obtain ⟨code, message, data⟩ := e
  unfold finish
  split <;> simp_all

end Fields

theorem find?_reverse {parts : Json.Members} (h : Keyed.Ascending parts) (key : String)
    : Keyed.find? key parts.reverse = Keyed.find? key parts := by
  rw [← Keyed.find?_ofList, Keyed.ofList_of_ascending h]

theorem fits_of_find? {parts : Json.Members} (h : Keyed.Ascending parts) {code : ErrorCode}
    {message : String} (hcode : Keyed.find? "code" parts = some (.ofInt64 code))
    (hmessage : Keyed.find? "message" parts = some (.string message))
    : ∀ e ∈ parts, Fits e := by
  rintro ⟨key, v⟩ he
  constructor
  . rintro rfl
    have hfound := (Keyed.find?_eq_some_iff h).2 he
    rw [hcode] at hfound
    exact ⟨code, (Option.some.inj hfound).symm⟩
  . rintro rfl
    have hfound := (Keyed.find?_eq_some_iff h).2 he
    rw [hmessage] at hfound
    exact ⟨message, (Option.some.inj hfound).symm⟩

theorem ofJson_object_iff {parts : Json.Members} (h : Keyed.Ascending parts) {e : ErrorObject}
    : ofJson (.object parts) = .ok e ↔ Reads (.object parts) e := by
  have hlast := find?_reverse h
  constructor
  . intro hread
    unfold ofJson at hread
    obtain ⟨f, hf, hfinish⟩ := bind_eq_ok hread
    obtain ⟨hcode, hmessage, hdata⟩ := Fields.finish_eq_ok_iff.1 hfinish
    obtain ⟨-, hcodes, hmessages, hdatas⟩ := Fields.foldlM_read hf
    rw [hlast, hcode] at hcodes
    rw [hlast, hmessage] at hmessages
    rw [hlast, hdata] at hdatas
    refine .object ?_ ?_ ?_
    . simpa using hcodes.symm
    . simpa using hmessages.symm
    . rw [hdatas]
      cases Keyed.find? "data" parts <;> rfl
  . intro hreads
    cases hreads with
    | object code message data =>
      obtain ⟨f, hf⟩ := Fields.exists_foldlM (fits_of_find? h code message) {}
      obtain ⟨-, hcodes, hmessages, hdatas⟩ := Fields.foldlM_read hf
      rw [hlast, code] at hcodes
      rw [hlast, message] at hmessages
      rw [hlast] at hdatas
      obtain ⟨code', hcode', heq⟩ := Option.map_eq_some_iff.1 hcodes
      obtain rfl := Json.ofInt64_inj heq
      obtain ⟨message', hmessage', hsame⟩ := Option.map_eq_some_iff.1 hmessages
      have hdata : f.data = e.data := by
        rw [hdatas, data]
        cases Keyed.find? "data" parts <;> rfl
      have hfinish : f.finish = .ok e :=
        Fields.finish_eq_ok_iff.2 ⟨hcode', Json.string.inj hsame ▸ hmessage', hdata⟩
      unfold ofJson
      exact (congrArg (· >>= Fields.finish) hf).trans hfinish

theorem ofJson_array_iff {items : List Json} {e : ErrorObject}
    : ofJson (.array items) = .ok e ↔ Reads (.array items) e := by
  constructor
  . intro hread
    unfold ofJson at hread
    split at hread
    . next heq => cases heq
    . cases hread
    . obtain ⟨code, -, hread⟩ := bind_eq_ok hread
      cases hread
    . next v w heq =>
      cases heq
      obtain ⟨code, hcode, hread⟩ := bind_eq_ok hread
      obtain ⟨message, hmessage, hread⟩ := bind_eq_ok hread
      cases hread
      obtain rfl := Json.toInt64_eq_ok_iff.1 hcode
      obtain rfl := Json.toText_eq_ok_iff.1 hmessage
      exact .pair code message
    . next v w data rest heq =>
      cases heq
      obtain ⟨code, hcode, hread⟩ := bind_eq_ok hread
      obtain ⟨message, hmessage, hread⟩ := bind_eq_ok hread
      obtain ⟨read, hdata, hread⟩ := bind_eq_ok hread
      obtain rfl := Json.toInt64_eq_ok_iff.1 hcode
      obtain rfl := Json.toText_eq_ok_iff.1 hmessage
      rw [Json.toOption_toJson] at hdata
      cases hdata
      dsimp only at hread
      split at hread
      . next hempty =>
        cases hread
        obtain rfl := List.isEmpty_iff.1 hempty
        exact .triple code message data
      . cases hread
    . cases hread
  . intro hreads
    cases hreads with
    | pair code message =>
      unfold ofJson
      dsimp only
      rw [ErrorCode.ofJson_ofInt64]
      rfl
    | triple code message data =>
      unfold ofJson
      dsimp only
      rw [ErrorCode.ofJson_ofInt64, Json.toOption_toJson]
      rfl

theorem ofJson_eq_ok_iff {v : Json} (h : v.sorted = v) {e : ErrorObject}
    : ofJson v = .ok e ↔ Reads v e := by
  cases v with
  | object parts => exact ofJson_object_iff (Json.ascending_of_sorted h)
  | array items => exact ofJson_array_iff
  | null | bool value | number n | string s =>
    constructor
    . intro hread
      cases hread
    . intro hreads
      cases hreads

theorem exists_fault_iff {v : Json} (h : v.sorted = v)
    : (∃ fault, ofJson v = .error fault) ↔ ∀ e, ¬Reads v e := by
  cases hread : ofJson v with
  | ok e =>
    have hreads := (ofJson_eq_ok_iff h).1 hread
    simpa using ⟨e, hreads⟩
  | error fault =>
    have hunread (e : ErrorObject) : ¬Reads v e := by
      rw [← ofJson_eq_ok_iff h, hread]
      simp
    simpa using hunread

end ErrorObject

theorem Id.toJson_inj {id id' : Id} : id.toJson = id'.toJson ↔ id = id' := by
  constructor
  . intro h
    have hread := Id.ofJson_toJson id
    rw [h, Id.ofJson_toJson] at hread
    exact (Except.ok.inj hread).symm
  . rintro rfl
    rfl

namespace Response

/--
What the members `result` and `error` carry: a result beside no error, or an error beside no
result, where a null member counts as none if this leaves one outcome.
-/
inductive Carries : (result error : Option Json) → Outcome → Prop where
  | result (value : Json) {error : Option Json} (alone : error = none ∨ error = some .null) :
    Carries (some value) error (.result value)
  | error {result : Option Json} {v : Json} {object : ErrorObject} (present : v ≠ .null)
    (reads : ErrorObject.Reads v object) (alone : result = none ∨ result = some .null) :
    Carries result (some v) (.error object)

inductive Contradicts : (result error : Option Json) → Prop where
  | both {value v : Json} (result : value ≠ .null) (error : v ≠ .null) :
    Contradicts (some value) (some v)
  | neither : Contradicts none none

inductive Unreadable : (result error : Option Json) → Prop where
  | malformed {result : Option Json} {v : Json} (present : v ≠ .null)
    (unread : ∀ object, ¬ErrorObject.Reads v object)
    (alone : result = none ∨ result = some .null) : Unreadable result (some v)
  | null : Unreadable none (some .null)

section Outcome

variable {result error : Option Json}

theorem readOutcome_of_alone {v : Json} (present : v ≠ .null)
    (alone : result = none ∨ result = some .null)
    : readOutcome result (some v)
        = match ErrorObject.ofJson v with
          | .ok object => .ok (.error object)
          | .error fault => .error (.decode (.shape fault)) := by
  rcases alone with rfl | rfl
  . rfl
  . cases v with
    | null => exact absurd rfl present
    | _ => rfl

theorem readOutcome_eq_ok_iff (h : ∀ v, error = some v → v.sorted = v) {outcome : Outcome}
    : readOutcome result error = .ok outcome ↔ Carries result error outcome := by
  constructor
  . intro hread
    unfold readOutcome at hread
    split at hread
    . cases hread
      exact .result _ (.inl rfl)
    . cases hread
      exact .result _ (.inr rfl)
    . next v =>
      cases hobject : ErrorObject.ofJson v with
      | error fault => simp [hobject] at hread
      | ok object =>
        simp only [hobject, Except.ok.injEq] at hread
        subst hread
        have hreads := (ErrorObject.ofJson_eq_ok_iff (h v rfl)).1 hobject
        refine .error ?_ hreads (.inl rfl)
        rintro rfl
        cases hreads
    . next v hpresent =>
      cases hobject : ErrorObject.ofJson v with
      | error fault => simp [hobject] at hread
      | ok object =>
        simp only [hobject, Except.ok.injEq] at hread
        subst hread
        exact .error hpresent ((ErrorObject.ofJson_eq_ok_iff (h v rfl)).1 hobject) (.inr rfl)
    . cases hread
  . intro hcarries
    cases hcarries with
    | result value alone => rcases alone with rfl | rfl <;> rfl
    | error present reads alone =>
      rw [readOutcome_of_alone present alone, (ErrorObject.ofJson_eq_ok_iff (h _ rfl)).2 reads]

theorem exists_reason_readOutcome_iff
    : (∃ reason, readOutcome result error = .error (.invalidMessage reason))
        ↔ Contradicts result error := by
  constructor
  . rintro ⟨reason, hread⟩
    unfold readOutcome at hread
    split at hread
    . cases hread
    . cases hread
    . split at hread <;> cases hread
    . split at hread <;> cases hread
    . next hresult hnull herror hboth =>
      cases result with
      | none =>
        cases error with
        | none => exact .neither
        | some v => exact absurd rfl (herror v rfl)
      | some value =>
        cases error with
        | none => exact absurd rfl (hresult value rfl)
        | some v =>
          refine .both ?_ ?_
          . rintro rfl
            exact hboth v rfl rfl
          . rintro rfl
            exact hnull value rfl rfl
  . intro hcontradicts
    cases hcontradicts with
    | neither => exact ⟨_, rfl⟩
    | @both value v hvalue hv =>
      refine ⟨"response must carry exactly one of result or error", ?_⟩
      cases value with
      | null => exact absurd rfl hvalue
      | _ => cases v with
        | null => exact absurd rfl hv
        | _ => rfl

theorem exists_fault_readOutcome_iff (h : ∀ v, error = some v → v.sorted = v)
    : (∃ fault, readOutcome result error = .error (.decode fault))
        ↔ Unreadable result error := by
  constructor
  . rintro ⟨fault, hread⟩
    unfold readOutcome at hread
    split at hread
    . cases hread
    . cases hread
    . next v =>
      by_cases hnull : v = .null
      . subst hnull
        exact .null
      . cases hobject : ErrorObject.ofJson v with
        | ok object => simp [hobject] at hread
        | error shape =>
          exact .malformed hnull ((ErrorObject.exists_fault_iff (h v rfl)).1 ⟨shape, hobject⟩)
            (.inl rfl)
    . next v hpresent =>
      cases hobject : ErrorObject.ofJson v with
      | ok object => simp [hobject] at hread
      | error shape =>
        exact .malformed hpresent ((ErrorObject.exists_fault_iff (h v rfl)).1 ⟨shape, hobject⟩)
          (.inr rfl)
    . cases hread
  . intro hunreadable
    cases hunreadable with
    | null => exact ⟨_, rfl⟩
    | malformed present unread alone =>
      obtain ⟨shape, hshape⟩ := (ErrorObject.exists_fault_iff (h _ rfl)).2 unread
      rw [readOutcome_of_alone present alone, hshape]
      exact ⟨_, rfl⟩

end Outcome

structure Enveloped (members : Json.Members) : Prop where
  version : Keyed.find? "jsonrpc" members = some (.string "2.0")
  id : ∃ v, Keyed.find? "id" members = some v ∧ v.IsIdentifier

theorem readId_error {v : Option Json} {error : ProtocolError} (h : readId v = .error error)
    : ∃ reason, error = .invalidMessage reason := by
  unfold readId at h
  split at h
  . exact Id.ofJson_error h
  . cases h
    exact ⟨_, rfl⟩

section Members

variable {members : Json.Members}

theorem ofJson_of_enveloped (h : Enveloped members)
    : ∃ id : Id, Keyed.find? "id" members = some id.toJson ∧
        ofJson (.object members)
          = (readOutcome (Keyed.find? "result" members) (Keyed.find? "error" members)).map
              fun outcome => { id, outcome, extra := furtherMembers members } := by
  obtain ⟨v, hv, hidentifier⟩ := h.id
  obtain ⟨id, hid⟩ := Id.exists_of_isIdentifier hidentifier
  refine ⟨id, by rw [hv, Id.toJson_of_ofJson hid], ?_⟩
  have hread : readId (Keyed.find? "id" members) = .ok id := by
    rw [hv]
    exact hid
  unfold ofJson
  simp only [checkVersion_iff.2 h.version, hread]
  rfl

theorem ofJson_of_not_enveloped (h : ¬Enveloped members)
    : ∃ reason, ofJson (.object members) = .error (.invalidMessage reason) := by
  unfold ofJson
  dsimp only
  cases hversion : checkVersion (Keyed.find? "jsonrpc" members) with
  | error error =>
    obtain ⟨reason, rfl⟩ := checkVersion_error hversion
    exact ⟨reason, rfl⟩
  | ok _ =>
    cases hid : readId (Keyed.find? "id" members) with
    | error error =>
      obtain ⟨reason, rfl⟩ := readId_error hid
      exact ⟨reason, rfl⟩
    | ok id =>
      refine absurd ⟨version_of_checkVersion hversion, ?_⟩ h
      unfold readId at hid
      split at hid
      . next v hv => exact ⟨v, hv, Id.isIdentifier_of_ofJson hid⟩
      . cases hid

end Members

theorem ofJson_cases (v : Json)
    : ((∃ reason, ofJson v = .error (.invalidMessage reason)) ∧
          ∀ members, v = .object members → ¬Enveloped members) ∨
        ∃ members, v = .object members ∧ Enveloped members ∧
          ∃ id : Id, Keyed.find? "id" members = some id.toJson ∧
            ofJson v
              = (readOutcome (Keyed.find? "result" members) (Keyed.find? "error" members)).map
                  fun outcome => { id, outcome, extra := furtherMembers members } := by
  cases v with
  | object members =>
    by_cases henveloped : Enveloped members
    . exact .inr ⟨members, rfl, henveloped, ofJson_of_enveloped henveloped⟩
    . refine .inl ⟨ofJson_of_not_enveloped henveloped, ?_⟩
      rintro _ ⟨⟩
      exact henveloped
  | null | bool value | number n | string s | array items =>
    exact .inl ⟨⟨_, rfl⟩, nofun⟩

/--
A value, with the members of each object in order, is a response exactly if it is an object in an
envelope that carries one outcome, and that is the outcome that is read. Without the envelope it is
an invalid message whatever it carries. In one it is an invalid message if it carries two outcomes
or none, and its error is reported as unreadable if it is the only outcome.
-/
theorem ofJson_iff_carries {v : Json} (h : v.sorted = v)
    : (∀ r, ofJson v = .ok r
          ↔ ∃ members, v = .object members ∧ Enveloped members ∧
              Keyed.find? "id" members = some r.id.toJson ∧
              Carries (Keyed.find? "result" members) (Keyed.find? "error" members) r.outcome ∧
              r.extra = furtherMembers members) ∧
        ((∃ reason, ofJson v = .error (.invalidMessage reason))
          ↔ ∀ members, v = .object members → Enveloped members →
              Contradicts (Keyed.find? "result" members) (Keyed.find? "error" members)) ∧
        ((∃ fault, ofJson v = .error (.decode fault))
          ↔ ∃ members, v = .object members ∧ Enveloped members ∧
              Unreadable (Keyed.find? "result" members) (Keyed.find? "error" members)) := by
  rcases ofJson_cases v with
    ⟨⟨reason, hread⟩, hnone⟩ | ⟨members, rfl, henveloped, id, hid, hread⟩
  . refine ⟨fun r => ⟨?_, ?_⟩, ⟨?_, ?_⟩, ⟨?_, ?_⟩⟩
    . simp [hread]
    . rintro ⟨members, hv, henveloped, -⟩
      exact absurd henveloped (hnone members hv)
    . intro _ members hv henveloped
      exact absurd henveloped (hnone members hv)
    . intro _
      exact ⟨reason, hread⟩
    . simp [hread]
    . rintro ⟨members, hv, henveloped, -⟩
      exact absurd henveloped (hnone members hv)
  . have hpart : ∀ e, Keyed.find? "error" members = some e → e.sorted = e :=
      fun e he => Json.sorted_of_mem h (Keyed.mem_of_find? he)
    simp only [hread, Json.object.injEq, exists_eq_left', forall_eq', henveloped, true_and,
      forall_const, hid, ← readOutcome_eq_ok_iff hpart, ← exists_reason_readOutcome_iff,
      ← exists_fault_readOutcome_iff hpart]
    cases readOutcome (Keyed.find? "result" members) (Keyed.find? "error" members) with
    | error error => simp [Except.map]
    | ok outcome =>
      refine ⟨fun r => ?_, by simp [Except.map], by simp [Except.map]⟩
      obtain ⟨id', outcome', extra⟩ := r
      simp only [Except.map, Except.ok.injEq, mk.injEq, Option.some.injEq, Id.toJson_inj,
        eq_comm]

def listedError : Json :=
  .object [("error", .array [.ofInt64 (-32601), .string "no such method"]), ("id", .null),
    ("jsonrpc", .string "2.0"), ("result", .null)]

def nullError : Json :=
  .object [("error", .null), ("id", .string "1"), ("jsonrpc", .string "2.0")]

theorem ofJson_iff_carries_of_errors
    : (listedError.sorted = listedError ∧
        ofJson listedError = .ok ⟨.null, .error ⟨-32601, "no such method", none⟩, []⟩) ∧
      nullError.sorted = nullError ∧ ∃ fault, ofJson nullError = .error (.decode fault) := by
  have hlisted : listedError.sorted = listedError := by decide
  have hnull : nullError.sorted = nullError := by decide
  refine ⟨⟨hlisted, ?_⟩, hnull, ?_⟩
  . refine ((ofJson_iff_carries hlisted).1 _).2
      ⟨_, rfl, ⟨rfl, .null, rfl, .null⟩, rfl, ?_, by decide⟩
    exact .error nofun (.pair (-32601) "no such method") (.inr rfl)
  . exact (ofJson_iff_carries hnull).2.2.2 ⟨_, rfl, ⟨rfl, .string "1", rfl, .string "1"⟩, .null⟩

end Response

end JsonRpc
