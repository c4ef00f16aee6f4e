import JsonRpc.Proofs.Text.Numeral
import Mathlib.Algebra.Group.Int.Defs

/-!
Signed numerals in machine words. Main statement: to read one digit after another into a word, and
to give up as soon as the word overflows, is to read the whole number and then look at its size.
-/

namespace JsonRpc.Text

def toWord? (n : Int) : Option Int64 :=
  if -2 ^ 63 ≤ n ∧ n < 2 ^ 63 then some (Int64.ofInt n) else none

/--
Appends a digit to the word read so far, which grows away from zero on the side of `sign`. The word
may overflow when it is shifted and when the digit is added.
-/
def pushWord? (base : Nat) (sign : Int) (acc : Option Int64) (c : Char) : Option Int64 := do
  let word ← acc
  let digit ← (digitValue? c).filter (· < base)
  let shifted ← toWord? (word.toInt * base)
  toWord? (shifted.toInt + sign * digit)

def digitsToWord? (base : Nat) (sign : Int) (cs : List Char) : Option Int64 :=
  if cs.isEmpty then none else cs.foldl (pushWord? base sign) (some 0)

def readWord? (base : Nat) : List Char → Option Int64
  | '-' :: rest => digitsToWord? base (-1) rest
  | '+' :: rest => digitsToWord? base 1 rest
  | cs => digitsToWord? base 1 cs

theorem toWord?_of_fits {n : Int} (h : -2 ^ 63 ≤ n ∧ n < 2 ^ 63)
    : toWord? n = some (Int64.ofInt n) := by
  exact if_pos h

theorem toInt_of_toWord? {n : Int} {word : Int64} (h : toWord? n = some word) : word.toInt = n := by
  unfold toWord? at h
  split at h
  . next hfits =>
    obtain rfl := Option.some.inj h
    exact Int64.toInt_ofInt_of_le hfits.1 hfits.2
  . cases h

theorem toWord?_isSome_iff {n : Int} : (toWord? n).isSome ↔ -2 ^ 63 ≤ n ∧ n < 2 ^ 63 := by
  unfold toWord?
  split <;> simp_all

theorem toWord?_isSome_of_le {sign : Int} (hsign : sign = 1 ∨ sign = -1) {m n : Nat} (hle : m ≤ n)
    (h : (toWord? (sign * n)).isSome) : (toWord? (sign * m)).isSome := by
  rw [toWord?_isSome_iff] at h ⊢
  rcases hsign with rfl | rfl <;> omega

section

variable {base : Nat}

theorem foldl_pushDigit_none (cs : List Char) : cs.foldl (pushDigit base) none = none := by
  induction cs with
  | nil => rfl
  | cons c cs ih => exact ih

theorem foldl_pushWord?_none (sign : Int) (cs : List Char)
    : cs.foldl (pushWord? base sign) none = none := by
  induction cs with
  | nil => rfl
  | cons c cs ih => exact ih

theorem pushDigit_eq (m : Nat) (c : Char)
    : pushDigit base (some m) c
        =
      ((digitValue? c).filter (· < base)).map fun digit => m * base + digit := by
  unfold pushDigit
  cases digitValue? c with
  | none => rfl
  | some digit =>
    rw [Option.bind_some, Option.filter_some]
    by_cases hdigit : digit < base <;> simp [hdigit]

theorem le_of_pushDigit {m n : Nat} {c : Char} (h : pushDigit base (some m) c = some n)
    : m ≤ n := by
  rw [pushDigit_eq] at h
  obtain ⟨digit, hdigit, rfl⟩ := Option.map_eq_some_iff.1 h
  have hbase : digit < base := by simpa using (Option.filter_eq_some_iff.1 hdigit).2
  have := Nat.le_mul_of_pos_right m (show 0 < base by omega)
  omega

theorem le_of_foldl_pushDigit {cs : List Char} {m n : Nat}
    (h : cs.foldl (pushDigit base) (some m) = some n) : m ≤ n := by
  induction cs generalizing m with
  | nil =>
    obtain rfl := Option.some.inj h
    exact Nat.le_refl _
  | cons c cs ih =>
    rw [List.foldl_cons] at h
    cases hpush : pushDigit base (some m) c with
    | none =>
      rw [hpush, foldl_pushDigit_none] at h
      cases h
    | some next =>
      rw [hpush] at h
      exact Nat.le_trans (le_of_pushDigit hpush) (ih h)

variable {sign : Int} (hsign : sign = 1 ∨ sign = -1)

include hsign

theorem pushWord?_eq {word : Int64} {m : Nat} (hword : word.toInt = sign * m) (c : Char)
    : pushWord? base sign (some word) c
        =
      (pushDigit base (some m) c).bind fun next => toWord? (sign * next) := by
  rw [pushDigit_eq]
  unfold pushWord?
  dsimp only [Option.bind_eq_bind, Option.bind_some]
  cases hdigit : (digitValue? c).filter (· < base) with
  | none => rfl
  | some digit =>
    have hshifted : word.toInt * base = sign * (m * base : Nat) := by
      rw [hword, Int.natCast_mul, Int.mul_assoc]
    have hnext : sign * (m * base : Nat) + sign * digit = sign * (m * base + digit : Nat) := by
      rw [← Int.mul_add, Int.natCast_add]
    rw [Option.bind_some, Option.map_some, Option.bind_some, hshifted]
    cases hshift : toWord? (sign * (m * base : Nat)) with
    | none =>
      -- What the digit is added to is too large already.
      rw [Option.bind_none, eq_comm, ← Option.not_isSome_iff_eq_none]
      intro hfits
      have := toWord?_isSome_of_le hsign (Nat.le_add_right (m * base) digit) hfits
      rw [hshift] at this
      cases this
    | some shifted => rw [Option.bind_some, toInt_of_toWord? hshift, hnext]

theorem foldl_pushWord? {cs : List Char} {word : Int64} {m : Nat} (hword : word.toInt = sign * m)
    : cs.foldl (pushWord? base sign) (some word)
        =
      (cs.foldl (pushDigit base) (some m)).bind fun n => toWord? (sign * n) := by
  induction cs generalizing word m with
  | nil =>
    have hfits := toWord?_of_fits ⟨Int64.le_toInt word, Int64.toInt_lt word⟩
    rw [Int64.ofInt_toInt, hword] at hfits
    exact hfits.symm
  | cons c cs ih =>
    rw [List.foldl_cons, List.foldl_cons, pushWord?_eq hsign hword]
    cases hpush : pushDigit base (some m) c with
    | none => rw [Option.bind_none, foldl_pushWord?_none, foldl_pushDigit_none, Option.bind_none]
    | some next =>
      rw [Option.bind_some]
      cases hnext : toWord? (sign * next) with
      | some word' => exact ih (toInt_of_toWord? hnext)
      | none =>
        -- The digits that follow do not make the number smaller.
        rw [foldl_pushWord?_none, eq_comm, Option.bind_eq_none_iff]
        intro n hn
        rw [← Option.not_isSome_iff_eq_none]
        intro hfits
        have := toWord?_isSome_of_le hsign (le_of_foldl_pushDigit hn) hfits
        rw [hnext] at this
        cases this

theorem digitsToWord?_eq (cs : List Char)
    : digitsToWord? base sign cs = (ofDigits? base cs).bind fun n => toWord? (sign * n) := by
  unfold digitsToWord? ofDigits?
  split
  . rfl
  . exact foldl_pushWord? hsign (by simp)

end

/-- Where a word overflows on the way, the whole number does not fit. -/
theorem readWord?_eq (base : Nat) (cs : List Char) : readWord? base cs = ofSigned64? base cs := by
  have hpositive (n : Nat)
      : toWord? (1 * n) = if n < 1 <<< 63 then some (Int64.ofNat n) else none := by
    unfold toWord?
    rw [Int.one_mul, Int64.ofInt_eq_ofNat]
    congr 1
    rw [eq_iff_iff]
    omega
  have hnegative (n : Nat)
      : toWord? (-1 * n) = if n ≤ 1 <<< 63 then some (Int64.ofInt (-n)) else none := by
    unfold toWord?
    rw [Int.neg_one_mul]
    congr 1
    rw [eq_iff_iff]
    omega
  unfold readWord? ofSigned64?
  split
  . simp only [digitsToWord?_eq (.inr rfl), hnegative]
  . simp only [digitsToWord?_eq (.inl rfl), hpositive]
  . simp only [digitsToWord?_eq (.inl rfl), hpositive]

example : readWord? 16 "-8000000000000000".toList = some Int64.minValue ∧
    readWord? 16 "8000000000000000".toList = none := by
  decide +kernel

end JsonRpc.Text
