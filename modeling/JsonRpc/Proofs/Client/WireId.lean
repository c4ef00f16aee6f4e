import JsonRpc.Client.WireId
import JsonRpc.Proofs.Text.Numeral

/-!
The texts of a call's number. Main statements: a number is read from its hexadecimal numeral in any
letter case, behind any number of zeros and a hyphen where there may be one, and one of these texts
is the one that is written.
-/

namespace JsonRpc.WireId

open Text

def Names (s : String) (id : Int64) : Prop :=
  ∃ sign zeros, (sign = [] ∧ 0 ≤ id.toInt ∨ sign = ['-'] ∧ id.toInt ≤ 0) ∧
    s.toLower.toList = sign ++ (List.replicate zeros '0' ++ digits 16 id.toInt.natAbs)

structure IsPlain (s : String) : Prop where
  small : s.toLower = s
  unpadded : ∀ rest, s.toList = '0' :: rest → rest = []
  unpaddedBelow : ∀ rest, s.toList ≠ '-' :: '0' :: rest

theorem ofSigned64?_hyphen {base : Nat} {cs : List Char} {id : Int64}
    : ofSigned64? base ('-' :: cs) = some id
        ↔ id.toInt ≤ 0 ∧ ofDigits? base cs = some id.toInt.natAbs := by
  change (ofDigits? base cs).bind _ = some id ↔ _
  rw [Option.bind_eq_some_iff]
  constructor
  . rintro ⟨n, hdigits, h⟩
    split at h
    . next hn =>
      obtain rfl := Option.some.inj h
      have hid : (Int64.ofInt (-n)).toInt = -n := Int64.toInt_ofInt_of_le (by omega) (by omega)
      rw [hid, Int.natAbs_neg, Int.natAbs_natCast]
      exact ⟨by omega, hdigits⟩
    . cases h
  . rintro ⟨hneg, hdigits⟩
    have hlow := Int64.le_toInt id
    have habs : -(id.toInt.natAbs : Int) = id.toInt := by omega
    exact ⟨_, hdigits, by rw [if_pos (by omega), habs, Int64.ofInt_toInt]⟩

theorem ofSigned64?_unsigned {base : Nat} {cs : List Char} {id : Int64}
    (hminus : ∀ rest, cs ≠ '-' :: rest) (hplus : ∀ rest, cs ≠ '+' :: rest)
    : ofSigned64? base cs = some id
        ↔ 0 ≤ id.toInt ∧ ofDigits? base cs = some id.toInt.natAbs := by
  unfold ofSigned64?
  split
  . next rest => exact absurd rfl (hminus rest)
  . next rest => exact absurd rfl (hplus rest)
  . rw [Option.bind_eq_some_iff]
    constructor
    . rintro ⟨n, hdigits, h⟩
      split at h
      . next hn =>
        obtain rfl := Option.some.inj h
        have hid : (Int64.ofNat n).toInt = n := by
          rw [← Int64.ofInt_eq_ofNat]
          exact Int64.toInt_ofInt_of_le (by omega) (by omega)
        rw [hid, Int.natAbs_natCast]
        exact ⟨by omega, hdigits⟩
      . cases h
    . rintro ⟨hpos, hdigits⟩
      have hhigh := Int64.toInt_lt id
      have habs : (id.toInt.natAbs : Int) = id.toInt := by omega
      exact ⟨_, hdigits, by
        rw [if_pos (by omega), ← Int64.ofInt_eq_ofNat, habs, Int64.ofInt_toInt]⟩

theorem parse?_eq_some_iff {s : String} {id : Int64} : parse? s = some id ↔ Names s id := by
  unfold parse? Names
  rw [toList_toLower]
  generalize s.toList = cs
  split
  . simp [digits_ne_nil]
  . next rest =>
    constructor
    . intro h
      cases h
    . rintro ⟨sign, zeros, ⟨rfl, -⟩ | ⟨rfl, -⟩, heq⟩
      . exact absurd rfl (ne_sign_of_zeros_append (by omega) (by omega) heq.symm).1
      . cases heq
  . next _ hplus =>
    have hplus (rest : List Char) : cs ≠ '+' :: rest := fun heq => hplus rest heq
    by_cases hminus : ∃ rest, cs = '-' :: rest
    . obtain ⟨rest, rfl⟩ := hminus
      rw [ofSigned64?_hyphen, ofDigits?_eq_some_iff (by omega) (by omega), ← exists_and_left]
      constructor
      . rintro ⟨zeros, hneg, heq⟩
        refine ⟨['-'], zeros, .inr ⟨rfl, hneg⟩, ?_⟩
        rw [List.map_cons, heq]
        rfl
      . rintro ⟨sign, zeros, ⟨rfl, -⟩ | ⟨rfl, hneg⟩, heq⟩
        . exact absurd rfl (ne_sign_of_zeros_append (by omega) (by omega) heq.symm).2
        . exact ⟨zeros, hneg, (List.cons.inj heq).2⟩
    . have hminus (rest : List Char) : cs ≠ '-' :: rest := fun heq => hminus ⟨rest, heq⟩
      rw [ofSigned64?_unsigned hminus hplus, ofDigits?_eq_some_iff (by omega) (by omega),
        ← exists_and_left]
      constructor
      . rintro ⟨zeros, hpos, heq⟩
        exact ⟨[], zeros, .inl ⟨rfl, hpos⟩, heq⟩
      . rintro ⟨sign, zeros, ⟨rfl, hpos⟩ | ⟨rfl, -⟩, heq⟩
        . exact ⟨zeros, hpos, heq⟩
        . obtain ⟨c, rest, rfl, hc, -⟩ := List.map_eq_cons_iff.1 heq
          rw [(toLower_eq_iff_of_lt (by decide)).1 hc] at hminus
          exact absurd rfl (hminus rest)

theorem toList_format (id : Int64)
    : (format id).toList
        =
      (if id.toInt < 0 then ['-'] else []) ++ digits 16 id.toInt.natAbs := by
  unfold format
  dsimp only
  rw [String.toList_ofList]
  split <;> rfl

theorem toLower_format (id : Int64) : (format id).toLower = format id := by
  rw [← String.toList_inj, toList_toLower, toList_format, List.map_append,
    map_toLower_digits (by omega) (by omega)]
  split <;> rfl

theorem names_format (id : Int64) : Names (format id) id := by
  unfold Names
  rw [toLower_format, toList_format]
  split
  . next hneg => exact ⟨['-'], 0, .inr ⟨rfl, by omega⟩, rfl⟩
  . next hpos => exact ⟨[], 0, .inl ⟨rfl, by omega⟩, rfl⟩

theorem parse?_format (id : Int64) : parse? (format id) = some id := by
  exact parse?_eq_some_iff.2 (names_format id)

theorem eq_of_format {a b : Int64} (h : format a = format b) : a = b := by
  have hread := congrArg parse? h
  rw [parse?_format, parse?_format] at hread
  exact Option.some.inj hread

theorem isPlain_format (id : Int64) : IsPlain (format id) := by
  have hzero {c : Char} {rest : List Char} (h : digits 16 id.toInt.natAbs = c :: rest)
      (hid : id.toInt ≠ 0) : c ≠ '0' :=
    ne_zero_of_digits (by omega) (by omega) h (by omega)
  constructor
  case small => exact toLower_format id
  case unpadded =>
    intro rest h
    rw [toList_format] at h
    split at h
    . cases (List.cons.inj h).1
    . by_cases hid : id.toInt = 0
      . rw [hid] at h
        rw [digits_of_lt (by decide)] at h
        exact (List.cons.inj h).2.symm
      . exact absurd rfl (hzero h hid)
  case unpaddedBelow =>
    intro rest h
    rw [toList_format] at h
    split at h
    . next hneg => exact absurd rfl (hzero (List.cons.inj h).2 (by omega))
    . have hsign := @ne_sign_of_zeros_append 16 (by omega) (by omega) 0 _ _ _ h
      exact absurd rfl hsign.2

theorem eq_format_iff {s : String} {id : Int64} (h : Names s id)
    : s = format id ↔ IsPlain s := by
  constructor
  . rintro rfl
    exact isPlain_format id
  . intro hplain
    obtain ⟨sign, zeros, hsign, heq⟩ := h
    rw [hplain.small] at heq
    obtain rfl : zeros = 0 := by
      cases zeros with
      | zero => rfl
      | succ zeros =>
        rcases hsign with ⟨rfl, -⟩ | ⟨rfl, -⟩
        . have := hplain.unpadded _ heq
          simp [digits_ne_nil] at this
        . exact absurd heq (hplain.unpaddedBelow _)
    rw [← String.toList_inj, toList_format, heq]
    rcases hsign with ⟨rfl, hpos⟩ | ⟨rfl, hneg⟩
    . rw [if_neg (by omega)]
      rfl
    . by_cases hid : id.toInt = 0
      . rw [hid] at heq
        rw [Int.natAbs_zero, digits_of_lt (by decide)] at heq
        exact absurd heq (hplain.unpaddedBelow [])
      . rw [if_pos (by omega)]
        rfl

end JsonRpc.WireId
