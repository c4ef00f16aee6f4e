import JsonRpc.Proofs.Envelope.RoundTrip
import JsonRpc.Proofs.Envelope.WellFormed

/-!
Identifiers are read in two ways, as part of a message and where typed data are read. Main
statement: both accept the same values as the same identifiers, namely those that the identifiers
are written as.
-/

namespace JsonRpc.Id

variable {v : Json} {id : Id}

theorem read_integer {n : Int} (hn : -(1 <<< 63 : Nat) ≤ n ∧ n < (1 <<< 64 : Nat))
    : read (.number (.integer n hn))
        =
      if n < (1 <<< 63 : Nat) then .ok (.int (Int64.ofInt n))
        else .error (.outOfRange n expected) := by
  change (if n < 0 then visitor.signed (Int64.ofInt n) else visitor.unsigned (UInt64.ofNat n.toNat))
    = _
  split
  . next hneg =>
    rw [if_pos (by omega)]
    rfl
  . next hpos =>
    have hword : (UInt64.ofNat n.toNat).toNat = n.toNat :=
      UInt64.toNat_ofNat_of_lt' (show n.toNat < 1 <<< 64 by omega)
    have hnat : (n.toNat : Int) = n := by omega
    change (if (UInt64.ofNat n.toNat).toNat < 1 <<< 63 then _ else _) = _
    rw [hword, UInt64.toInt64_ofNat', ← Int64.ofInt_eq_ofNat, hnat]
    by_cases hsigned : n < (1 <<< 63 : Nat)
    . rw [if_pos hsigned, if_pos (by omega)]
    . rw [if_neg hsigned, if_neg (by omega)]

theorem toOption_read (v : Json) : (read v).toOption = (ofJson v).toOption := by
  cases v with
  | number n =>
    cases n with
    | integer n hn =>
      rw [read_integer]
      by_cases hsigned : n < (1 <<< 63 : Nat)
      . simp only [ofJson, Json.asInt64?, if_pos hsigned]
        rfl
      . simp only [ofJson, Json.asInt64?, if_neg hsigned]
        rfl
    | float x => rfl
  | null | bool | string | array | object => rfl

theorem ofJson_eq_ok_iff : ofJson v = .ok id ↔ id.toJson = v := by
  constructor
  . exact toJson_of_ofJson
  . rintro rfl
    exact ofJson_toJson id

theorem read_eq_ok_iff : read v = .ok id ↔ id.toJson = v := by
  have hsame := toOption_read v
  rw [← ofJson_eq_ok_iff]
  cases hread : read v <;> cases hof : ofJson v <;> simp_all [Except.toOption]

theorem isIdentifier_iff : v.IsIdentifier ↔ ∃ id, ofJson v = .ok id := by
  constructor
  . exact exists_of_isIdentifier
  . rintro ⟨id, h⟩
    exact isIdentifier_of_ofJson h

theorem exists_error_iff {ε : Type} {reader : Json → Except ε Id}
    (h : ∀ id, reader v = .ok id ↔ id.toJson = v) : (∃ e, reader v = .error e) ↔ ¬v.IsIdentifier := by
  simp only [isIdentifier_iff, ofJson_eq_ok_iff, ← h]
  cases reader v <;> simp

theorem decode?_encode_toJson (id : Id) : Json.decode? id.toJson.encode = some id.toJson := by
  have hfaithful := faithful_toJson Json.maxDepth id
  rw [Json.decode?_encode hfaithful.readable, hfaithful.sorted]

/--
Both readers take a value for an identifier exactly if it is what the identifier is written as.
These are null, the texts and the integers that fit in a signed word, and no float. On all other
values both fail. What is printed for an identifier is read as the value that it was printed from,
and so as the identifier in its form.
-/
theorem readers_agree (v : Json)
    : (∀ id, ofJson v = .ok id ↔ id.toJson = v) ∧
        (∀ id, read v = .ok id ↔ id.toJson = v) ∧
        ((∃ id, ofJson v = .ok id) ↔ v.IsIdentifier) ∧
        ((∃ id, read v = .ok id) ↔ v.IsIdentifier) ∧
        ((∃ reason, ofJson v = .error (.invalidMessage reason)) ↔ ¬v.IsIdentifier) ∧
        ((∃ fault, read v = .error fault) ↔ ¬v.IsIdentifier) ∧
        ∀ id : Id, ofJson id.toJson = .ok id ∧ read id.toJson = .ok id ∧
          Json.decode? id.toJson.encode = some id.toJson := by
  refine ⟨fun id => ofJson_eq_ok_iff, fun id => read_eq_ok_iff, isIdentifier_iff.symm, ?_, ?_,
    exists_error_iff fun id => read_eq_ok_iff, ?_⟩
  . rw [isIdentifier_iff]
    simp only [ofJson_eq_ok_iff, read_eq_ok_iff]
  . rw [← exists_error_iff fun id => ofJson_eq_ok_iff]
    constructor
    . rintro ⟨reason, h⟩
      exact ⟨_, h⟩
    . rintro ⟨error, h⟩
      obtain ⟨reason, rfl⟩ := ofJson_error h
      exact ⟨reason, h⟩
  . intro id
    exact ⟨ofJson_toJson id, read_eq_ok_iff.2 rfl, decode?_encode_toJson id⟩

end JsonRpc.Id
