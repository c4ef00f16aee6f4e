import JsonRpc.Proofs.Text.Case
import JsonRpc.Text.Numeral
import Mathlib.Data.List.Induction

/-!
Numerals are read as the numbers that they were written for.
-/

namespace JsonRpc

namespace Text

theorem digitValue?_digitChar {d : Nat} (h : d < 16) : digitValue? (digitChar d) = some d := by
  have hall : ∀ d : Fin 16, digitValue? (digitChar d) = some d.val := by decide
  exact hall ⟨d, h⟩

theorem digitChar_ne_sign {d : Nat} (h : d < 16) : digitChar d ≠ '+' ∧ digitChar d ≠ '-' := by
  have hall : ∀ d : Fin 16, digitChar d ≠ '+' ∧ digitChar d ≠ '-' := by decide
  exact hall ⟨d, h⟩

theorem exists_of_mem_digits {base n : Nat} (hbase : 2 ≤ base) (hlast : base ≤ 16) {c : Char}
    (h : c ∈ digits base n) : ∃ d < base, c = digitChar d := by
  induction n using Nat.strongRecOn with
  | ind n ih =>
    rw [digits] at h
    split at h
    . next hn =>
      rcases List.mem_append.1 h with h | h
      . exact ih (n / base) (Nat.div_lt_self (by omega) (by omega)) h
      . exact ⟨n % base, Nat.mod_lt n (by omega), List.mem_singleton.1 h⟩
    . next hn => exact ⟨n, by omega, List.mem_singleton.1 h⟩

section

variable {base : Nat} (hbase : 2 ≤ base) (hlast : base ≤ 16)

include hbase hlast

theorem pushDigit_digitChar {n d : Nat} (hd : d < base)
    : pushDigit base (some n) (digitChar d) = some (n * base + d) := by
  unfold pushDigit
  rw [Option.bind_some, digitValue?_digitChar (by omega), Option.bind_some, if_pos hd]

theorem foldl_digits (n : Nat) : (digits base n).foldl (pushDigit base) (some 0) = some n := by
  induction n using Nat.strongRecOn with
  | ind n ih =>
    -- The last digit is pushed onto the number that the others stand for.
    rw [digits]
    split
    . next h =>
      rw [List.foldl_append, ih (n / base) (Nat.div_lt_self (by omega) (by omega))]
      rw [List.foldl_cons, List.foldl_nil,
        pushDigit_digitChar hbase hlast (Nat.mod_lt n (by omega))]
      congr 1
      rw [Nat.mul_comm]
      exact Nat.div_add_mod n base
    . next h =>
      rw [List.foldl_cons, List.foldl_nil, pushDigit_digitChar hbase hlast (by omega)]
      simp

theorem exists_cons_digits (n : Nat) : ∃ d rest, d < 16 ∧ digits base n = digitChar d :: rest := by
  induction n using Nat.strongRecOn with
  | ind n ih =>
    rw [digits]
    split
    . next h =>
      obtain ⟨d, rest, hd, hdigits⟩ := ih (n / base) (Nat.div_lt_self (by omega) (by omega))
      exact ⟨d, rest ++ [digitChar (n % base)], hd, by rw [hdigits, List.cons_append]⟩
    . next h => exact ⟨n, [], by omega, rfl⟩

theorem ofDigits?_digits (n : Nat) : ofDigits? base (digits base n) = some n := by
  obtain ⟨d, rest, -, hdigits⟩ := exists_cons_digits hbase hlast n
  unfold ofDigits?
  rw [foldl_digits hbase hlast, hdigits]
  rfl

end

theorem digits_of_lt {base d : Nat} (h : d < base) : digits base d = [digitChar d] := by
  rw [digits, if_neg (by omega)]

theorem digits_append {base d n : Nat} (hbase : 2 ≤ base) (hd : d < base) (hn : n ≠ 0)
    : digits base (n * base + d) = digits base n ++ [digitChar d] := by
  have hlarge : base ≤ n * base + d := by
    have := Nat.le_mul_of_pos_left base (Nat.pos_of_ne_zero hn)
    omega
  have hlast : (n * base + d) % base = d := by
    rw [Nat.add_comm, Nat.add_mul_mod_self_right, Nat.mod_eq_of_lt hd]
  have hfirst : (n * base + d) / base = n := by
    rw [Nat.mul_comm, Nat.mul_add_div (by omega), Nat.div_eq_of_lt hd, Nat.add_zero]
  rw [digits.eq_def base (n * base + d), if_pos ⟨hbase, hlarge⟩, hlast, hfirst]

theorem digits_ne_nil (base n : Nat) : digits base n ≠ [] := by
  rw [digits]
  split <;> simp

theorem ne_zero_of_digits {base : Nat} (hbase : 2 ≤ base) (hlast : base ≤ 16) {n : Nat} {c : Char}
    {rest : List Char} (h : digits base n = c :: rest) (hn : n ≠ 0) : c ≠ '0' := by
  induction n using Nat.strongRecOn generalizing rest with
  | ind n ih =>
    rw [digits] at h
    split at h
    . next hlarge =>
      obtain ⟨c', rest', hdigits⟩ := List.exists_cons_of_ne_nil (digits_ne_nil base (n / base))
      rw [hdigits] at h
      cases h
      have hpos : n / base ≠ 0 := Nat.div_ne_zero_iff.2 ⟨by omega, hlarge.2⟩
      exact ih (n / base) (Nat.div_lt_self (by omega) (by omega)) hdigits hpos
    . next hsmall =>
      cases h
      have hall : ∀ d : Fin 16, d.val ≠ 0 → digitChar d ≠ '0' := by decide
      exact hall ⟨n, by omega⟩ hn

theorem toNat_digitChar {d : Nat} (h : d < 16)
    : (digitChar d).toNat = if d < 10 then 48 + d else 87 + d := by
  have hall : ∀ d : Fin 16, (digitChar d).toNat = if d.val < 10 then 48 + d.val else 87 + d.val := by
    decide
  exact hall ⟨d, h⟩

theorem toLower_digitChar {d : Nat} (h : d < 16) : (digitChar d).toLower = digitChar d := by
  rw [← Char.toNat_inj, toNat_toLower, toNat_digitChar h]
  split <;> split <;> omega

theorem map_toLower_digits {base : Nat} (hbase : 2 ≤ base) (hlast : base ≤ 16) (n : Nat)
    : (digits base n).map Char.toLower = digits base n := by
  have hsame (c : Char) (hc : c ∈ digits base n) : c.toLower = c := by
    obtain ⟨d, hd, rfl⟩ := exists_of_mem_digits hbase hlast hc
    exact toLower_digitChar (by omega)
  rw [List.map_congr_left hsame, List.map_id']

theorem digitValue?_toLower (c : Char) : digitValue? c.toLower = digitValue? c := by
  unfold digitValue?
  simp only [toNat_toLower]
  grind

theorem toLower_eq_digitChar {c : Char} {d : Nat} (h : digitValue? c = some d) (hd : d < 16)
    : c.toLower = digitChar d := by
  rw [← Char.toNat_inj, toNat_toLower, toNat_digitChar hd]
  unfold digitValue? at h
  grind

theorem pushDigit_toLower (base : Nat) (acc : Option Nat) (c : Char)
    : pushDigit base acc c.toLower = pushDigit base acc c := by
  unfold pushDigit
  rw [digitValue?_toLower]

theorem ofDigits?_toLower (base : Nat) (cs : List Char)
    : ofDigits? base (cs.map Char.toLower) = ofDigits? base cs := by
  unfold ofDigits?
  rw [List.isEmpty_map, List.foldl_map]
  simp only [pushDigit_toLower]

section

variable {base : Nat} (hbase : 2 ≤ base) (hlast : base ≤ 16)

include hlast

theorem of_pushDigit {acc : Option Nat} {c : Char} {n : Nat} (h : pushDigit base acc c = some n)
    : ∃ m d, acc = some m ∧ d < base ∧ c.toLower = digitChar d ∧ n = m * base + d := by
  unfold pushDigit at h
  obtain ⟨m, rfl, hm⟩ := Option.bind_eq_some_iff.1 h
  obtain ⟨d, hdigit, h⟩ := Option.bind_eq_some_iff.1 hm
  split at h
  . next hd =>
    exact ⟨m, d, rfl, hd, toLower_eq_digitChar hdigit (by omega), (Option.some.inj h).symm⟩
  . cases h

include hbase

theorem foldl_zeros (zeros : Nat)
    : (List.replicate zeros '0').foldl (pushDigit base) (some 0) = some 0 := by
  have hzero : pushDigit base (some 0) '0' = some (0 * base + 0) :=
    pushDigit_digitChar hbase hlast (show 0 < base by omega)
  rw [Nat.zero_mul] at hzero
  induction zeros with
  | zero => rfl
  | succ zeros ih => rw [List.replicate_succ, List.foldl_cons, hzero, ih]

theorem ofDigits?_eq_some_iff {cs : List Char} {n : Nat}
    : ofDigits? base cs = some n
        ↔ ∃ zeros, cs.map Char.toLower = List.replicate zeros '0' ++ digits base n := by
  constructor
  . intro h
    unfold ofDigits? at h
    split at h
    . cases h
    . next hne =>
      have hne : cs ≠ [] := by simpa using hne
      clear * - h hne hbase hlast
      induction cs using List.reverseRecOn generalizing n with
      | nil => exact absurd rfl hne
      | append_singleton cs c ih =>
        rw [List.foldl_append, List.foldl_cons, List.foldl_nil] at h
        obtain ⟨m, d, hm, hd, hc, rfl⟩ := of_pushDigit hlast h
        rw [List.map_append, List.map_singleton, hc]
        by_cases hcs : cs = []
        . subst hcs
          obtain rfl : m = 0 := (Option.some.inj hm).symm
          refine ⟨0, ?_⟩
          rw [Nat.zero_mul, Nat.zero_add, digits_of_lt hd]
          rfl
        . obtain ⟨zeros, hzeros⟩ := ih hm hcs
          rw [hzeros]
          by_cases hzero : m = 0
          . -- A number of one digit adds its zero to those in front.
            subst hzero
            refine ⟨zeros + 1, ?_⟩
            rw [Nat.zero_mul, Nat.zero_add, digits_of_lt hd, digits_of_lt (by omega),
              List.replicate_succ']
            rfl
          . refine ⟨zeros, ?_⟩
            rw [digits_append hbase hd hzero, List.append_assoc]
  . rintro ⟨zeros, hcs⟩
    rw [← ofDigits?_toLower, hcs]
    unfold ofDigits?
    rw [if_neg (by simp [digits_ne_nil]), List.foldl_append, foldl_zeros hbase hlast]
    exact foldl_digits hbase hlast n

end

theorem ne_sign_of_zeros_append {base : Nat} (hbase : 2 ≤ base) (hlast : base ≤ 16) {zeros n : Nat}
    {c : Char} {rest : List Char} (h : List.replicate zeros '0' ++ digits base n = c :: rest)
    : c ≠ '+' ∧ c ≠ '-' := by
  cases zeros with
  | zero =>
    obtain ⟨d, more, hd, hdigits⟩ := exists_cons_digits hbase hlast n
    obtain rfl : digitChar d = c := (List.cons.inj (hdigits.symm.trans h)).1
    exact digitChar_ne_sign hd
  | succ zeros =>
    cases (List.cons.inj h).1
    decide

theorem ofDigits?_ten_eq_some_iff {cs : List Char} {n : Nat}
    : ofDigits? 10 cs = some n ↔ ∃ zeros, cs = List.replicate zeros '0' ++ digits 10 n := by
  rw [ofDigits?_eq_some_iff (by omega) (by omega)]
  apply exists_congr
  intro zeros
  apply map_toLower_eq_iff
  intro c hc
  rcases List.mem_append.1 hc with hzero | hmem
  . rw [List.eq_of_mem_replicate hzero]
    decide
  . obtain ⟨d, hd, rfl⟩ := exists_of_mem_digits (by omega) (by omega) hmem
    rw [toNat_digitChar (by omega), if_pos hd]
    omega

def Spells (cs : List Char) (n : Nat) : Prop :=
  ∃ sign zeros, (sign = [] ∨ sign = ['+']) ∧
    cs = sign ++ (List.replicate zeros '0' ++ digits 10 n)

theorem ofUnsigned?_eq_some_iff {bound n : Nat} {cs : List Char}
    : ofUnsigned? bound cs = some n ↔ n < bound ∧ Spells cs n := by
  unfold ofUnsigned?
  rw [Option.filter_eq_some_iff, decide_eq_true_eq, and_comm]
  apply and_congr_right
  intro hn
  split
  . next rest =>
    rw [ofDigits?_ten_eq_some_iff]
    constructor
    . rintro ⟨zeros, rfl⟩
      exact ⟨['+'], zeros, .inr rfl, rfl⟩
    . rintro ⟨sign, zeros, rfl | rfl, heq⟩
      . exact absurd rfl (ne_sign_of_zeros_append (by omega) (by omega) heq.symm).1
      . exact ⟨zeros, (List.cons.inj heq).2⟩
  . next hplain =>
    rw [ofDigits?_ten_eq_some_iff]
    constructor
    . rintro ⟨zeros, rfl⟩
      exact ⟨[], zeros, .inl rfl, rfl⟩
    . rintro ⟨sign, zeros, rfl | rfl, rfl⟩
      . exact ⟨zeros, rfl⟩
      . exact absurd rfl (hplain _)

end Text

end JsonRpc
