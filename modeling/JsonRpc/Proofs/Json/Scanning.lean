import JsonRpc.Json.Parser
import JsonRpc.Json.Printer
import JsonRpc.Proofs.Text.Numeral
import JsonRpc.Proofs.Text.Utf8
import Mathlib.Data.List.TakeWhile

/-!
Numbers and strings that are read as they are printed. An integer and a string always are, whatever
follows them; a float is read the same everywhere as it is read alone.
-/

namespace JsonRpc.Json

open Text

theorem isDigit_digitChar {d : Nat} (h : d < 10) : isDigit (digitChar d) = true := by
  have hall : ∀ d : Fin 10, isDigit (digitChar d) = true := by decide
  exact hall ⟨d, h⟩

theorem isDigit_of_mem_digits {n : Nat} {c : Char} (h : c ∈ digits 10 n) : isDigit c = true := by
  obtain ⟨d, hd, rfl⟩ := exists_of_mem_digits (by omega) (by omega) h
  exact isDigit_digitChar hd

theorem leadingDigits_digits {n : Nat} (hn : n < 1 <<< 64) (rest : List Char)
    : leadingDigits 0 (digits 10 n ++ rest) = leadingDigits n rest := by
  have hpush {m d : Nat} (hd : d < 10) (hlt : m * 10 + d < 1 <<< 64) (rest : List Char)
      : leadingDigits m (digitChar d :: rest) = leadingDigits (m * 10 + d) rest := by
    have hsome : pushDigit? m (digitChar d) = some (m * 10 + d) := by
      unfold pushDigit?
      rw [pushDigit_digitChar (by omega) (by omega) hd, Option.filter_some,
        if_pos (by simpa using hlt)]
    rw [leadingDigits, hsome]
  induction n using Nat.strongRecOn generalizing rest with
  | ind n ih =>
    rw [digits]
    split
    . next hlarge =>
      rw [List.append_assoc, ih (n / 10) (Nat.div_lt_self (by omega) (by omega)) (by omega)]
      rw [List.singleton_append, hpush (Nat.mod_lt n (by omega)) (by omega)]
      congr 1
      omega
    . next hsmall =>
      rw [List.singleton_append, hpush (by omega) (by omega)]
      simp

def EndsNumber (rest : List Char) : Prop :=
  ∀ c tail, rest = c :: tail → isDigit c = false ∧ c ≠ '.' ∧ c ≠ 'e' ∧ c ≠ 'E'

theorem endsNumber_nil : EndsNumber [] := by
  intro c tail h
  cases h

theorem endsNumber_cons {c : Char} {rest : List Char}
    (h : isDigit c = false ∧ c ≠ '.' ∧ c ≠ 'e' ∧ c ≠ 'E') : EndsNumber (c :: rest) := by
  intro c' tail heq
  cases heq
  exact h

theorem scanDigits?_append {ds rest : List Char} (hne : ds ≠ []) (hds : ∀ c ∈ ds, isDigit c = true)
    (hrest : ∀ c tail, rest = c :: tail → isDigit c = false)
    : scanDigits? (ds ++ rest) = some (ds, rest) := by
  have htake : rest.takeWhile isDigit = [] := by
    cases rest with
    | nil => rfl
    | cons c tail => simp [hrest c tail rfl]
  have hdrop : rest.dropWhile isDigit = rest := by
    cases rest with
    | nil => rfl
    | cons c tail => simp [hrest c tail rfl]
  unfold scanDigits?
  rw [List.takeWhile_append_of_pos hds, List.dropWhile_append_of_pos hds, htake, hdrop,
    List.append_nil]
  cases ds with
  | nil => exact absurd rfl hne
  | cons d ds => rfl

theorem of_scanDigits? {cs ds rest : List Char} (h : scanDigits? cs = some (ds, rest))
    : cs = ds ++ rest ∧ ds ≠ [] ∧ (∀ c ∈ ds, isDigit c = true) ∧
        ∀ c tail, rest = c :: tail → isDigit c = false := by
  unfold scanDigits? at h
  split at h
  . cases h
  . next hne =>
    cases h
    refine ⟨(List.takeWhile_append_dropWhile (p := isDigit)).symm, hne, ?_, ?_⟩
    . exact fun c hc => List.mem_takeWhile_imp hc
    . intro c tail heq
      have hfind := List.find?_not_eq_head?_dropWhile isDigit cs
      rw [heq] at hfind
      simpa using List.find?_some hfind

theorem scanWhole?_digits (n : Nat) {rest : List Char} (hrest : EndsNumber rest)
    : scanWhole? (digits 10 n ++ rest) = some (digits 10 n, rest) := by
  by_cases hn : n = 0
  . subst hn
    have hzero : digits 10 0 = ['0'] := by rw [digits]; rfl
    rw [hzero]
    rfl
  . obtain ⟨c, tail, hdigits⟩ := List.exists_cons_of_ne_nil (digits_ne_nil 10 n)
    have hscan : scanDigits? (digits 10 n ++ rest) = some (digits 10 n, rest) :=
      scanDigits?_append (digits_ne_nil 10 n) (fun c hc => isDigit_of_mem_digits hc)
        fun c tail heq => (hrest c tail heq).1
    have hfirst := ne_zero_of_digits (by omega) (by omega) hdigits hn
    rw [hdigits, List.cons_append] at *
    unfold scanWhole?
    split
    . next heq => exact absurd (List.cons.inj heq).1 hfirst
    . exact hscan

theorem scanFraction?_of_ends {rest : List Char} (h : EndsNumber rest)
    : scanFraction? rest = some ([], rest) := by
  unfold scanFraction?
  split
  . next tail => exact absurd rfl (h '.' tail rfl).2.1
  . rfl

theorem scanExponent?_of_ends {rest : List Char} (h : EndsNumber rest)
    : scanExponent? rest = some (none, rest) := by
  unfold scanExponent?
  split
  . next tail => exact absurd rfl (h 'e' tail rfl).2.2.1
  . next tail => exact absurd rfl (h 'E' tail rfl).2.2.2
  . rfl

theorem scanUnsigned?_digits (negative : Bool) (n : Nat) {rest : List Char}
    (hrest : EndsNumber rest)
    : scanUnsigned? negative (digits 10 n ++ rest)
        =
      (numberOf? negative (digits 10 n) [] none).map (·, rest) := by
  unfold scanUnsigned?
  simp only [scanWhole?_digits n hrest, scanFraction?_of_ends hrest, scanExponent?_of_ends hrest,
    Option.bind_eq_bind, Option.bind_some]
  cases numberOf? negative (digits 10 n) [] none <;> rfl

theorem numberOf?_digits {negative : Bool} {n : Nat} (hn : n < 1 <<< 64)
    (hsign : negative = true → 0 < n ∧ n ≤ 1 <<< 63)
    : numberOf? negative (digits 10 n) [] none = Number.ofInt? (if negative then -n else n) := by
  have hleading : leadingDigits 0 (digits 10 n) = (n, []) := by
    have := leadingDigits_digits hn []
    rwa [List.append_nil] at this
  unfold numberOf?
  rw [hleading]
  dsimp only
  rw [if_pos]
  cases negative with
  | false => rfl
  | true => simpa using hsign rfl

theorem scanNumber?_integer (n : Int) (hn : -(1 <<< 63 : Nat) ≤ n ∧ n < (1 <<< 64 : Nat))
    {rest : List Char} (hrest : EndsNumber rest)
    : scanNumber? ((Number.integer n hn).text ++ rest) = some (.integer n hn, rest) := by
  change scanNumber? ((decimalInt n).toList ++ rest) = _
  unfold decimalInt
  split
  . next hneg =>
    have hof : Number.ofInt? (if true then -(n.natAbs : Int) else n.natAbs) = some (.integer n hn) := by
      have habs : -(n.natAbs : Int) = n := by omega
      simp only [if_true, habs]
      exact dif_pos hn
    simp only [decimal, String.toList_append, String.toList_ofList]
    change scanUnsigned? true (digits 10 n.natAbs ++ rest) = _
    rw [scanUnsigned?_digits true _ hrest, numberOf?_digits (by omega) (by omega), hof]
    rfl
  . next hnonneg =>
    have hof : Number.ofInt? (if false then -(n.natAbs : Int) else n.natAbs) = some (.integer n hn) := by
      have habs : (n.natAbs : Int) = n := by omega
      simp only [habs]
      exact dif_pos hn
    simp only [decimal, String.toList_ofList]
    have hscan : scanUnsigned? false (digits 10 n.natAbs ++ rest) = some (.integer n hn, rest) := by
      rw [scanUnsigned?_digits false _ hrest, numberOf?_digits (by omega) (by simp), hof]
      rfl
    obtain ⟨c, tail, hdigits⟩ := List.exists_cons_of_ne_nil (digits_ne_nil 10 n.natAbs)
    have hdigit : isDigit c = true :=
      isDigit_of_mem_digits (by rw [hdigits]; exact List.mem_cons_self)
    rw [hdigits, List.cons_append] at hscan ⊢
    unfold scanNumber?
    split
    . next heq =>
      cases heq
      cases hdigit
    . exact hscan

/-- What is found does not depend on what follows, unless a number goes on there. -/
def IsLocal {α : Type} (scan : List Char → Option (α × List Char)) : Prop :=
  ∀ cs a rest, scan cs = some (a, rest) →
    rest <:+ cs ∧ ∀ more, EndsNumber more → scan (cs ++ more) = some (a, rest ++ more)

namespace IsLocal

variable {α β : Type}

theorem found (a : α) : IsLocal fun cs => some (a, cs) := by
  intro cs b rest h
  cases h
  exact ⟨List.suffix_refl _, fun more _ => rfl⟩

theorem bind {scan : List Char → Option (α × List Char)}
    {g : α → List Char → Option (β × List Char)} (h : IsLocal scan) (hg : ∀ a, IsLocal (g a))
    : IsLocal fun cs => (scan cs).bind fun found => g found.1 found.2 := by
  intro cs b rest hb
  obtain ⟨⟨a, middle⟩, ha, hb⟩ := Option.bind_eq_some_iff.1 hb
  obtain ⟨hmiddle, hlocal⟩ := h cs a middle ha
  obtain ⟨hrest, hlocal'⟩ := hg a middle b rest hb
  refine ⟨hrest.trans hmiddle, ?_⟩
  intro more hmore
  dsimp only
  rw [hlocal more hmore]
  exact hlocal' more hmore

theorem map {γ : Type} {scan : List Char → Option (α × List Char)} (h : IsLocal scan)
    (f : α → Option β) (g : β → γ)
    : IsLocal fun cs => (scan cs).bind fun found => (f found.1).bind fun b => some (g b, found.2) := by
  apply bind h (g := fun a rest => (f a).bind fun b => some (g b, rest))
  intro a
  cases f a with
  | none =>
    intro cs b rest h
    cases h
  | some b => exact found (g b)

theorem of_cons {scan : List Char → Option (α × List Char)}
    (hnil : scan [] = none ∨ ∃ a, ∀ more, EndsNumber more → scan more = some (a, more))
    (hcons : ∀ c, ∃ inner, IsLocal inner ∧
      ((∀ cs, scan (c :: cs) = inner cs) ∨ ∀ cs, scan (c :: cs) = inner (c :: cs)))
    : IsLocal scan := by
  intro cs a rest h
  cases cs with
  | nil =>
    rcases hnil with hnone | ⟨b, hends⟩
    . rw [hnone] at h
      cases h
    . rw [hends [] endsNumber_nil] at h
      cases h
      exact ⟨List.suffix_refl _, hends⟩
  | cons c cs =>
    obtain ⟨inner, hinner, hscan | hscan⟩ := hcons c
    . rw [hscan] at h
      obtain ⟨hsuffix, hlocal⟩ := hinner cs a rest h
      refine ⟨hsuffix.trans (List.suffix_cons c cs), ?_⟩
      intro more hmore
      rw [List.cons_append, hscan]
      exact hlocal more hmore
    . rw [hscan] at h
      obtain ⟨hsuffix, hlocal⟩ := hinner (c :: cs) a rest h
      refine ⟨hsuffix, ?_⟩
      intro more hmore
      rw [List.cons_append, hscan]
      exact hlocal more hmore

end IsLocal

theorem isLocal_scanDigits? : IsLocal scanDigits? := by
  intro cs ds rest h
  obtain ⟨rfl, hne, hds, hrest⟩ := of_scanDigits? h
  refine ⟨List.suffix_append ds rest, ?_⟩
  intro more hmore
  rw [List.append_assoc]
  apply scanDigits?_append hne hds
  intro c tail heq
  cases rest with
  | nil => exact (hmore c tail heq).1
  | cons d rest =>
    cases heq
    exact hrest c rest rfl

theorem isLocal_scanWhole? : IsLocal scanWhole? := by
  apply IsLocal.of_cons (.inl rfl)
  intro c
  by_cases hc : c = '0'
  . subst hc
    exact ⟨_, .found ['0'], .inl fun _ => rfl⟩
  . exact ⟨_, isLocal_scanDigits?, .inr fun _ => by simp [scanWhole?, hc]⟩

theorem isLocal_scanFraction? : IsLocal scanFraction? := by
  apply IsLocal.of_cons (.inr ⟨[], fun _ => scanFraction?_of_ends⟩)
  intro c
  by_cases hc : c = '.'
  . subst hc
    exact ⟨_, isLocal_scanDigits?, .inl fun _ => rfl⟩
  . exact ⟨_, .found [], .inr fun _ => by simp [scanFraction?, hc]⟩

theorem isLocal_scanSignedDigits? : IsLocal scanSignedDigits? := by
  have hdigits (g : Nat → Int) := isLocal_scanDigits?.map (ofDigits? 10) g
  apply IsLocal.of_cons (.inl rfl)
  intro c
  by_cases hminus : c = '-'
  . subst hminus
    exact ⟨_, hdigits fun n => -n, .inl fun _ => rfl⟩
  . by_cases hplus : c = '+'
    . subst hplus
      exact ⟨_, hdigits fun n => n, .inl fun _ => rfl⟩
    . refine ⟨_, hdigits fun n => n, .inr fun cs => ?_⟩
      unfold scanSignedDigits?
      split
      . next heq => exact absurd (List.cons.inj heq).1 hminus
      . next heq => exact absurd (List.cons.inj heq).1 hplus
      . rfl

theorem isLocal_scanExponent? : IsLocal scanExponent? := by
  have hexponent := isLocal_scanSignedDigits?.map some some
  apply IsLocal.of_cons (.inr ⟨none, fun _ => scanExponent?_of_ends⟩)
  intro c
  by_cases hc : c = 'e' ∨ c = 'E'
  . refine ⟨_, hexponent, .inl fun cs => ?_⟩
    rcases hc with rfl | rfl <;> simp only [scanExponent?] <;> cases scanSignedDigits? cs <;> rfl
  . rw [not_or] at hc
    exact ⟨_, .found none, .inr fun _ => by simp [scanExponent?, hc]⟩

theorem isLocal_scanUnsigned? (negative : Bool) : IsLocal (scanUnsigned? negative) := by
  have hnumber (whole fraction : List Char) :=
    isLocal_scanExponent?.map (numberOf? negative whole fraction) id
  have hfraction (whole : List Char) := isLocal_scanFraction?.bind (hnumber whole)
  exact isLocal_scanWhole?.bind hfraction

theorem isLocal_scanNumber? : IsLocal scanNumber? := by
  apply IsLocal.of_cons (.inl rfl)
  intro c
  by_cases hc : c = '-'
  . subst hc
    exact ⟨_, isLocal_scanUnsigned? true, .inl fun _ => rfl⟩
  . exact ⟨_, isLocal_scanUnsigned? false, .inr fun _ => by simp [scanNumber?, hc]⟩

def isNumeric (c : Char) : Bool :=
  isDigit c || c = '.' || c = 'e' || c = '+' || c = '-'

theorem isNumeric_of_mem_digits {n : Nat} {c : Char} (h : c ∈ digits 10 n) : isNumeric c = true := by
  simp [isNumeric, isDigit_of_mem_digits h]

theorem isNumeric_positional {ds : List Char} (hds : ∀ c ∈ ds, isNumeric c = true) (exponent : Int)
    : ∀ c ∈ positional ds exponent, isNumeric c = true := by
  have hzeros (k : Nat) : ∀ c ∈ List.replicate k '0', isNumeric c = true := by
    intro c hc
    rw [List.eq_of_mem_replicate hc]
    rfl
  unfold positional
  dsimp only
  split
  . simp only [List.forall_mem_append, List.forall_mem_cons]
    exact ⟨⟨hds, hzeros _⟩, rfl, rfl, by simp⟩
  . split
    . simp only [List.forall_mem_append, List.forall_mem_cons]
      exact ⟨fun c hc => hds c (List.mem_of_mem_take hc), rfl,
        fun c hc => hds c (List.mem_of_mem_drop hc)⟩
    . simp only [List.forall_mem_append, List.forall_mem_cons]
      exact ⟨⟨rfl, rfl, hzeros _⟩, hds⟩

theorem isNumeric_scientific {ds : List Char} (hds : ∀ c ∈ ds, isNumeric c = true) (leading : Int)
    : ∀ c ∈ scientific ds leading, isNumeric c = true := by
  have htail : ∀ c ∈ ds.tail, isNumeric c = true := fun c hc => hds c (List.mem_of_mem_tail hc)
  unfold scientific
  dsimp only
  simp only [List.forall_mem_append, List.forall_mem_cons]
  refine ⟨⟨fun c hc => hds c (List.mem_of_mem_take hc), ?_⟩, rfl, ?_, ?_⟩
  . cases hrest : ds.tail with
    | nil => simp
    | cons c rest =>
      rw [hrest] at htail
      exact List.forall_mem_cons.2 ⟨rfl, htail⟩
  . split <;> rfl
  . exact fun c hc => isNumeric_of_mem_digits hc

theorem isNumeric_text (n : Number) : ∀ c ∈ n.text, isNumeric c = true := by
  cases n with
  | integer n hn =>
    change ∀ c ∈ (decimalInt n).toList, isNumeric c = true
    unfold decimalInt decimal
    split
    . simp only [String.toList_append, String.toList_ofList, List.forall_mem_append]
      have hminus : "-".toList.all isNumeric = true := by decide
      exact ⟨List.all_eq_true.1 hminus, fun c hc => isNumeric_of_mem_digits hc⟩
    . rw [String.toList_ofList]
      exact fun c hc => isNumeric_of_mem_digits hc
  | float x =>
    have hdigits : ∀ c ∈ digits 10 x.shortest.coefficient, isNumeric c = true :=
      fun c hc => isNumeric_of_mem_digits hc
    change ∀ c ∈ floatText x, isNumeric c = true
    unfold floatText
    dsimp only
    split <;> split
    . exact List.forall_mem_cons.2 ⟨rfl, isNumeric_positional hdigits _⟩
    . exact List.forall_mem_cons.2 ⟨rfl, isNumeric_scientific hdigits _⟩
    . exact isNumeric_positional hdigits _
    . exact isNumeric_scientific hdigits _

theorem scanHex4?_ofNat {n : Nat} (hn : n < 0x20) (rest : List Char)
    : scanHex4? ('0' :: '0' :: digitChar (n / 16) :: digitChar (n % 16) :: rest)
        =
      some (n, rest) := by
  have hall : ∀ n : Fin 0x20, ofDigits? 16 ['0', '0', digitChar (n.val / 16), digitChar (n.val % 16)]
      = some n.val := by
    decide
  unfold scanHex4?
  dsimp only
  rw [hall ⟨n, hn⟩]
  rfl

theorem scanChar?_escapeChar (c : Char) (rest : List Char)
    : scanChar? (escapeChar c ++ rest) = some (c, rest) ∧
        ∀ tail, escapeChar c ++ rest ≠ '"' :: tail := by
  unfold escapeChar
  split
  . next h => subst h; exact ⟨rfl, by simp⟩
  split
  . next h => subst h; exact ⟨rfl, by simp⟩
  split
  . next h => subst h; exact ⟨rfl, by simp⟩
  split
  . next h => subst h; exact ⟨rfl, by simp⟩
  split
  . next h => subst h; exact ⟨rfl, by simp⟩
  split
  . next h => subst h; exact ⟨rfl, by simp⟩
  split
  . next h => subst h; exact ⟨rfl, by simp⟩
  split
  . next hcontrol =>
    refine ⟨?_, by simp⟩
    change scanCodePoint? ('0' :: '0' :: digitChar (c.toNat / 16) :: digitChar (c.toNat % 16) :: rest)
      = some (c, rest)
    unfold scanCodePoint?
    rw [scanHex4?_ofNat hcontrol]
    simp [show c.toNat < 0xD800 by omega, Char.ofNat_toNat]
  . next hquote hbackslash _ _ _ _ _ hplain =>
    refine ⟨?_, by simpa using hquote⟩
    rw [List.singleton_append]
    unfold scanChar?
    split
    . next heq => exact absurd (List.cons.inj heq).1 hbackslash
    . next heq => exact absurd (List.cons.inj heq).1 hbackslash
    . next heq =>
      cases heq
      rw [if_neg (by simp [hplain, hbackslash])]
    . next heq => cases heq

theorem scanString?_escape {fuel : Nat} {cs : List Char} (hfuel : cs.length < fuel)
    (acc rest : List Char)
    : scanString? fuel acc (cs.flatMap escapeChar ++ '"' :: rest)
        =
      some (String.ofList (acc.reverse ++ cs), rest) := by
  induction cs generalizing fuel acc with
  | nil =>
    obtain ⟨fuel, rfl⟩ := Nat.exists_eq_succ_of_ne_zero (Nat.ne_of_gt hfuel)
    simp [scanString?]
  | cons c cs ih =>
    obtain ⟨fuel, rfl⟩ := Nat.exists_eq_succ_of_ne_zero (Nat.ne_of_gt (Nat.zero_lt_of_lt hfuel))
    rw [List.length_cons] at hfuel
    obtain ⟨hscan, hplain⟩ := scanChar?_escapeChar c (cs.flatMap escapeChar ++ '"' :: rest)
    rw [List.flatMap_cons, List.append_assoc]
    unfold scanString?
    split
    . next heq => exact absurd heq (hplain _)
    . rw [hscan]
      dsimp only
      rw [ih (by omega)]
      simp

end JsonRpc.Json
