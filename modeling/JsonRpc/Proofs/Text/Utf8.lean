import JsonRpc.Text.Utf8

/-!
Text is decoded from the bytes that it was encoded in, and from no others.
-/

namespace JsonRpc.Text.Utf8

theorem trail_succ {lo hi : UInt8} {b count : Nat} (acc : Nat) (rest : Bytes) (hb : b < 256)
    (hlo : lo.toNat ≤ b) (hhi : b ≤ hi.toNat)
    : trail (count + 1) lo hi acc (UInt8.ofNat b :: rest)
        =
      trail count 0x80 0xBF (acc * 64 + (b - 0x80)) rest := by
  have hnat : (UInt8.ofNat b).toNat = b := UInt8.toNat_ofNat_of_lt' hb
  rw [trail, if_pos, hnat]
  rw [UInt8.le_iff_toNat_le, UInt8.le_iff_toNat_le, hnat]
  exact ⟨hlo, hhi⟩

theorem scan_ofNat {b : Nat} (hb : b < 256) (rest : Bytes)
    : scan (UInt8.ofNat b) rest
        =
      if b ≤ 0x7F then (some (Char.ofNat b), rest)
      else if b < 0xC2 then (none, rest)
      else if b ≤ 0xDF then trail 1 0x80 0xBF (b - 0xC0) rest
      else if b = 0xE0 then trail 2 0xA0 0xBF 0 rest
      else if b = 0xED then trail 2 0x80 0x9F 0xD rest
      else if b ≤ 0xEF then trail 2 0x80 0xBF (b - 0xE0) rest
      else if b = 0xF0 then trail 3 0x90 0xBF 0 rest
      else if b ≤ 0xF3 then trail 3 0x80 0xBF (b - 0xF0) rest
      else if b = 0xF4 then trail 3 0x80 0x8F 4 rest
      else (none, rest) := by
  have hnat : (UInt8.ofNat b).toNat = b := UInt8.toNat_ofNat_of_lt' hb
  unfold scan
  simp only [UInt8.le_iff_toNat_le, UInt8.lt_iff_toNat_lt, ← UInt8.toNat_inj, hnat]
  rfl

theorem scan_two {n : Nat} (hlow : 0x80 ≤ n) (hhigh : n < 0x800) (rest : Bytes)
    : scan (UInt8.ofNat (0xC0 + n / 64)) (UInt8.ofNat (0x80 + n % 64) :: rest)
        =
      (some (Char.ofNat n), rest) := by
  have hvalue : (0xC0 + n / 64 - 0xC0) * 64 + (0x80 + n % 64 - 0x80) = n := by omega
  rw [scan_ofNat (by omega), if_neg (by omega), if_neg (by omega), if_pos (by omega)]
  rw [trail_succ _ _ (by omega) (by simp) (by simp; omega), trail, hvalue]

theorem scan_three {n : Nat} (hlow : 0x800 ≤ n) (hhigh : n < 0x10000)
    (hvalid : n < 0xD800 ∨ 0xDFFF < n) (rest : Bytes)
    : scan (UInt8.ofNat (0xE0 + n / 4096))
        (UInt8.ofNat (0x80 + n / 64 % 64) :: UInt8.ofNat (0x80 + n % 64) :: rest)
        =
      (some (Char.ofNat n), rest) := by
  have hvalue (first : Nat) (hfirst : first = n / 4096)
      : (first * 64 + (0x80 + n / 64 % 64 - 0x80)) * 64 + (0x80 + n % 64 - 0x80) = n := by
    omega
  have hlast (acc : Nat) : trail 1 0x80 0xBF acc (UInt8.ofNat (0x80 + n % 64) :: rest)
      = (some (Char.ofNat (acc * 64 + (0x80 + n % 64 - 0x80))), rest) := by
    rw [trail_succ _ _ (by omega) (by simp) (by simp; omega), trail]
  rw [scan_ofNat (by omega), if_neg (by omega), if_neg (by omega), if_neg (by omega)]
  -- The second byte is bounded from below behind E0, and from above behind ED.
  split
  . rw [trail_succ _ _ (by omega) (by simp; omega) (by simp; omega), hlast, hvalue _ (by omega)]
  . split
    . rw [trail_succ _ _ (by omega) (by simp) (by simp; omega), hlast, hvalue _ (by omega)]
    . rw [if_pos (by omega), trail_succ _ _ (by omega) (by simp) (by simp; omega), hlast,
        hvalue _ (by omega)]

theorem scan_four {n : Nat} (hlow : 0x10000 ≤ n) (hhigh : n < 0x110000) (rest : Bytes)
    : scan (UInt8.ofNat (0xF0 + n / 262144))
        (UInt8.ofNat (0x80 + n / 4096 % 64) :: UInt8.ofNat (0x80 + n / 64 % 64) ::
          UInt8.ofNat (0x80 + n % 64) :: rest)
        =
      (some (Char.ofNat n), rest) := by
  have hvalue (first : Nat) (hfirst : first = n / 262144)
      : ((first * 64 + (0x80 + n / 4096 % 64 - 0x80)) * 64 + (0x80 + n / 64 % 64 - 0x80)) * 64
          + (0x80 + n % 64 - 0x80) = n := by
    omega
  have hlast (acc : Nat) : trail 2 0x80 0xBF acc
      (UInt8.ofNat (0x80 + n / 64 % 64) :: UInt8.ofNat (0x80 + n % 64) :: rest)
      = (some (Char.ofNat ((acc * 64 + (0x80 + n / 64 % 64 - 0x80)) * 64
          + (0x80 + n % 64 - 0x80))), rest) := by
    rw [trail_succ _ _ (by omega) (by simp) (by simp; omega)]
    rw [trail_succ _ _ (by omega) (by simp) (by simp; omega), trail]
  rw [scan_ofNat (by omega), if_neg (by omega), if_neg (by omega), if_neg (by omega),
    if_neg (by omega), if_neg (by omega), if_neg (by omega)]
  -- The second byte is bounded from below behind F0, and from above behind F4.
  split
  . rw [trail_succ _ _ (by omega) (by simp; omega) (by simp; omega), hlast, hvalue _ (by omega)]
  . split
    . rw [trail_succ _ _ (by omega) (by simp) (by simp; omega), hlast, hvalue _ (by omega)]
    . rw [if_pos (by omega), trail_succ _ _ (by omega) (by simp) (by simp; omega), hlast,
        hvalue _ (by omega)]

theorem scan_encodeChar (c : Char)
    : ∃ b tail, encodeChar c = b :: tail ∧ ∀ rest, scan b (tail ++ rest) = (some c, rest) := by
  have hvalid : c.toNat < 0xD800 ∨ 0xDFFF < c.toNat ∧ c.toNat < 0x110000 := c.valid
  unfold encodeChar
  dsimp only
  split
  . next hone =>
    refine ⟨_, _, rfl, ?_⟩
    intro rest
    rw [scan_ofNat (by omega), if_pos (by omega), Char.ofNat_toNat]
    rfl
  split
  . next htwo =>
    refine ⟨_, _, rfl, ?_⟩
    intro rest
    exact (scan_two (by omega) htwo rest).trans (by rw [Char.ofNat_toNat])
  split
  . next hthree =>
    refine ⟨_, _, rfl, ?_⟩
    intro rest
    exact (scan_three (by omega) hthree (by omega) rest).trans (by rw [Char.ofNat_toNat])
  . refine ⟨_, _, rfl, ?_⟩
    intro rest
    exact (scan_four (by omega) (by omega) rest).trans (by rw [Char.ofNat_toNat])

theorem pieces.go_encode (cs : List Char) (acc : List (Option Char))
    : go acc (cs.flatMap encodeChar) = acc.reverse ++ cs.map some := by
  induction cs generalizing acc with
  | nil => simp [go]
  | cons c cs ih =>
    obtain ⟨b, tail, hencode, hscan⟩ := scan_encodeChar c
    rw [List.flatMap_cons, hencode, List.cons_append, go, hscan, ih]
    simp

theorem decode?_encode (s : String) : decode? (encode s) = some s := by
  have hpieces : pieces (encode s) = s.toList.map some := by
    unfold pieces encode
    rw [pieces.go_encode, List.reverse_nil, List.nil_append]
  unfold decode?
  simp [hpieces, List.filterMap_map, Function.comp_def]

theorem encode_append (s t : String) : encode (s ++ t) = encode s ++ encode t := by
  simp [encode]

theorem toNat_of_mem_encodeChar {c : Char} {b : UInt8} (hmem : b ∈ encodeChar c)
    (hb : b.toNat < 0x80)
    : c.toNat = b.toNat := by
  have hnat (n : Nat) : (UInt8.ofNat n).toNat = n % 256 := UInt8.toNat_ofNat'
  have hvalid : c.toNat < 0xD800 ∨ 0xDFFF < c.toNat ∧ c.toNat < 0x110000 := c.valid
  unfold encodeChar at hmem
  dsimp only at hmem
  split at hmem
  . next hone =>
    cases List.mem_singleton.1 hmem
    rw [hnat]
    omega
  split at hmem
  . next htwo =>
    simp only [List.mem_cons, List.not_mem_nil, or_false] at hmem
    rcases hmem with rfl | rfl <;> rw [hnat] at hb <;> omega
  split at hmem
  . next hthree =>
    simp only [List.mem_cons, List.not_mem_nil, or_false] at hmem
    rcases hmem with rfl | rfl | rfl <;> rw [hnat] at hb <;> omega
  . simp only [List.mem_cons, List.not_mem_nil, or_false] at hmem
    rcases hmem with rfl | rfl | rfl | rfl <;> rw [hnat] at hb <;> omega

theorem not_mem_encode {s : String} {b : UInt8} (hb : b.toNat < 0x80)
    (h : Char.ofNat b.toNat ∉ s.toList) : b ∉ encode s := by
  intro hmem
  obtain ⟨c, hc, hmem⟩ := List.mem_flatMap.1 hmem
  apply h
  rw [← toNat_of_mem_encodeChar hmem hb, Char.ofNat_toNat]
  exact hc

theorem toNat_ofNat {n : Nat} (h : n < 0xD800 ∨ 0xDFFF < n ∧ n < 0x110000)
    : (Char.ofNat n).toNat = n := by
  have hvalid : n.isValidChar := h
  rw [Char.ofNat, dif_pos hvalid]
  rfl

theorem of_trail_succ {count : Nat} {lo hi : UInt8} {acc : Nat} {bytes rest : Bytes} {c : Char}
    (h : trail (count + 1) lo hi acc bytes = (some c, rest))
    : ∃ b tail, bytes = UInt8.ofNat b :: tail ∧ lo.toNat ≤ b ∧ b ≤ hi.toNat ∧
        trail count 0x80 0xBF (acc * 64 + (b - 0x80)) tail = (some c, rest) := by
  cases bytes with
  | nil => cases h
  | cons b tail =>
    rw [trail] at h
    split at h
    . next hb =>
      rw [UInt8.le_iff_toNat_le, UInt8.le_iff_toNat_le] at hb
      exact ⟨b.toNat, tail, by rw [UInt8.ofNat_toNat], hb.1, hb.2, h⟩
    . cases h

theorem of_trail_one {acc : Nat} {bytes rest : Bytes} {c : Char}
    (h : trail 1 0x80 0xBF acc bytes = (some c, rest))
    : ∃ b, bytes = UInt8.ofNat b :: rest ∧ 0x80 ≤ b ∧ b ≤ 0xBF ∧
        c = Char.ofNat (acc * 64 + (b - 0x80)) := by
  obtain ⟨b, tail, rfl, hlo, hhi, hrest⟩ := of_trail_succ h
  rw [trail] at hrest
  obtain ⟨hc, rfl⟩ := Prod.mk.inj hrest
  exact ⟨b, rfl, hlo, hhi, (Option.some.inj hc).symm⟩

theorem encodeChar_of_trail_one {b : Nat} (hb : 0xC2 ≤ b) (hb' : b ≤ 0xDF) {bytes rest : Bytes}
    {c : Char} (h : trail 1 0x80 0xBF (b - 0xC0) bytes = (some c, rest))
    : UInt8.ofNat b :: bytes = encodeChar c ++ rest := by
  obtain ⟨b₁, rfl, hlo, hhi, hc⟩ := of_trail_one h
  generalize hn : (b - 0xC0) * 64 + (b₁ - 0x80) = n at hc
  have hfirst : 0xC0 + n / 64 = b := by omega
  have hsecond : 0x80 + n % 64 = b₁ := by omega
  unfold encodeChar
  rw [hc, toNat_ofNat (by omega)]
  dsimp only
  rw [if_neg (by omega), if_pos (by omega), hfirst, hsecond]
  rfl

theorem encodeChar_of_trail_two {acc : Nat} (hacc : acc < 0x10) {lo hi : UInt8}
    (hlo : 0x80 ≤ lo.toNat) (hhi : hi.toNat ≤ 0xBF) (hlong : acc = 0 → 0xA0 ≤ lo.toNat)
    (hvalid : acc = 0xD → hi.toNat ≤ 0x9F) {bytes rest : Bytes} {c : Char}
    (h : trail 2 lo hi acc bytes = (some c, rest))
    : UInt8.ofNat (0xE0 + acc) :: bytes = encodeChar c ++ rest := by
  obtain ⟨b₁, tail, rfl, hlo₁, hhi₁, htail⟩ := of_trail_succ h
  obtain ⟨b₂, rfl, hlo₂, hhi₂, hc⟩ := of_trail_one htail
  generalize hn : (acc * 64 + (b₁ - 0x80)) * 64 + (b₂ - 0x80) = n at hc
  have hfirst : 0xE0 + n / 4096 = 0xE0 + acc := by omega
  have hsecond : 0x80 + n / 64 % 64 = b₁ := by omega
  have hthird : 0x80 + n % 64 = b₂ := by omega
  unfold encodeChar
  rw [hc, toNat_ofNat (by omega)]
  dsimp only
  rw [if_neg (by omega), if_neg (by omega), if_pos (by omega), hfirst, hsecond, hthird]
  rfl

theorem encodeChar_of_trail_three {acc : Nat} (hacc : acc ≤ 4) {lo hi : UInt8}
    (hlo : 0x80 ≤ lo.toNat) (hhi : hi.toNat ≤ 0xBF) (hlong : acc = 0 → 0x90 ≤ lo.toNat)
    (hvalid : acc = 4 → hi.toNat ≤ 0x8F) {bytes rest : Bytes} {c : Char}
    (h : trail 3 lo hi acc bytes = (some c, rest))
    : UInt8.ofNat (0xF0 + acc) :: bytes = encodeChar c ++ rest := by
  obtain ⟨b₁, tail, rfl, hlo₁, hhi₁, htail⟩ := of_trail_succ h
  obtain ⟨b₂, tail, rfl, hlo₂, hhi₂, htail⟩ := of_trail_succ htail
  obtain ⟨b₃, rfl, hlo₃, hhi₃, hc⟩ := of_trail_one htail
  have hlo₂ : 0x80 ≤ b₂ := hlo₂
  have hhi₂ : b₂ ≤ 0xBF := hhi₂
  generalize hn : ((acc * 64 + (b₁ - 0x80)) * 64 + (b₂ - 0x80)) * 64 + (b₃ - 0x80) = n at hc
  have hfirst : 0xF0 + n / 262144 = 0xF0 + acc := by omega
  have hsecond : 0x80 + n / 4096 % 64 = b₁ := by omega
  have hthird : 0x80 + n / 64 % 64 = b₂ := by omega
  have hfourth : 0x80 + n % 64 = b₃ := by omega
  unfold encodeChar
  rw [hc, toNat_ofNat (by omega)]
  dsimp only
  rw [if_neg (by omega), if_neg (by omega), if_neg (by omega), hfirst, hsecond, hthird, hfourth]
  rfl

theorem eq_encodeChar_of_scan {b : UInt8} {bytes rest : Bytes} {c : Char}
    (h : scan b bytes = (some c, rest)) : b :: bytes = encodeChar c ++ rest := by
  have hb : b = UInt8.ofNat b.toNat := UInt8.ofNat_toNat.symm
  have hlt : b.toNat < 256 := UInt8.toNat_lt b
  generalize b.toNat = b at hb hlt
  subst hb
  rw [scan_ofNat hlt] at h
  split at h
  . next hone =>
    obtain ⟨hc, rfl⟩ := Prod.mk.inj h
    unfold encodeChar
    rw [← Option.some.inj hc, toNat_ofNat (by omega)]
    dsimp only
    rw [if_pos (by omega)]
    rfl
  split at h
  . cases h
  split at h
  . exact encodeChar_of_trail_one (by omega) (by omega) h
  split at h
  . next hfirst =>
    subst hfirst
    exact encodeChar_of_trail_two (by decide) (by decide) (by decide) (by simp) (by simp) h
  split at h
  . next hfirst =>
    subst hfirst
    exact encodeChar_of_trail_two (by decide) (by decide) (by decide) (by simp) (by simp) h
  split at h
  . have hfirst : b = 0xE0 + (b - 0xE0) := by omega
    rw [hfirst]
    exact encodeChar_of_trail_two (by omega) (by decide) (by decide) (by omega) (by omega) h
  split at h
  . next hfirst =>
    subst hfirst
    exact encodeChar_of_trail_three (by decide) (by decide) (by decide) (by simp) (by simp) h
  split at h
  . have hfirst : b = 0xF0 + (b - 0xF0) := by omega
    rw [hfirst]
    exact encodeChar_of_trail_three (by omega) (by decide) (by decide) (by omega) (by omega) h
  split at h
  . next hfirst =>
    subst hfirst
    exact encodeChar_of_trail_three (by decide) (by decide) (by decide) (by simp) (by simp) h
  . cases h

theorem pieces.of_go (acc : List (Option Char)) (bytes : Bytes)
    : ∃ found, go acc bytes = acc.reverse ++ found ∧
        (found.all Option.isSome → (found.filterMap id).flatMap encodeChar = bytes) := by
  fun_induction go acc bytes with
  | case1 acc => exact ⟨[], by simp, by simp⟩
  | case2 acc b rest ih =>
    obtain ⟨found, hgo, hfound⟩ := ih
    refine ⟨(scan b rest).1 :: found, by simp [hgo], ?_⟩
    intro hall
    rw [List.all_cons, Bool.and_eq_true] at hall
    obtain ⟨c, hc⟩ := Option.isSome_iff_exists.1 hall.1
    have hscan : scan b rest = (some c, (scan b rest).2) := by rw [← hc]
    rw [eq_encodeChar_of_scan hscan, ← hfound hall.2, hc]
    rfl

theorem encode_of_decode? {bytes : Bytes} {text : String} (h : decode? bytes = some text)
    : encode text = bytes := by
  obtain ⟨found, hgo, hfound⟩ := pieces.of_go [] bytes
  have hpieces : pieces bytes = found := hgo
  unfold decode? at h
  rw [hpieces] at h
  dsimp only at h
  split at h
  . next hall =>
    cases h
    rw [encode, String.toList_ofList, hfound hall]
  . cases h

theorem decode?_eq_some_iff {bytes : Bytes} {text : String}
    : decode? bytes = some text ↔ encode text = bytes := by
  constructor
  . exact encode_of_decode?
  . rintro rfl
    exact decode?_encode text

end JsonRpc.Text.Utf8
