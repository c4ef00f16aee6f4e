import JsonRpc.Proofs.Transport.Agreement
import Mathlib

/-!
The headers that a reader makes of the lines of a block, whatever bytes they are. Keys and values
are without blanks at their ends and without line feeds, and a key is in its canonical spelling and
without a colon. So a reader makes the same headers of them again.
-/

namespace JsonRpc

open Source (lineFeed)

namespace Text

theorem isBlank_of_isAlpha {c : Char} (h : c.isAlpha) : isBlank c = false := by
  have hcode : 65 ≤ c.toNat ∧ c.toNat ≤ 90 ∨ 97 ≤ c.toNat ∧ c.toNat ≤ 122 := by
    simpa [Char.isAlpha, Char.isUpper, Char.isLower, UInt32.le_iff_toNat_le] using h
  simp [isBlank, inRanges, blankRanges]
  omega

end Text

namespace canonicalKey

theorem recased {p : Char → Bool} (hp : ∀ c : Char, c.isAlpha → p c = false) (upper : Bool)
    (c : Char) : p (if upper then c.toUpper else c.toLower) = p c := by
  by_cases h : c.isAlpha
  . rw [hp c h]
    apply hp
    cases upper <;> simpa using h
  . simp only [Char.isAlpha, Bool.or_eq_true, not_or] at h
    cases upper with
    | true => simp [Char.toUpper_eq_of_not_isLower h.2]
    | false => simp [Char.toLower_eq_of_not_isUpper h.1]

theorem map_go {p : Char → Bool} (hp : ∀ c : Char, c.isAlpha → p c = false) (upper : Bool)
    (cs : List Char) : (go upper cs).map p = cs.map p := by
  induction cs generalizing upper with
  | nil => rfl
  | cons c cs ih => rw [go, List.map_cons, List.map_cons, recased hp, ih]

theorem go_go (upper : Bool) (cs : List Char) : go upper (go upper cs) = go upper cs := by
  have hyphen (c : Char) (hc : c.isAlpha) : decide (c = '-') = false := by
    rw [decide_eq_false_iff_not]
    rintro rfl
    cases hc
  induction cs generalizing upper with
  | nil => rfl
  | cons c cs ih =>
    simp only [go]
    rw [recased hyphen, ih]
    cases upper <;> simp

end canonicalKey

theorem toList_canonicalKey (key : String)
    : (canonicalKey key).toList = canonicalKey.go true key.toList := by
  rw [canonicalKey, String.toList_ofList]

theorem canonicalKey_canonicalKey (key : String)
    : canonicalKey (canonicalKey key) = canonicalKey key := by
  rw [canonicalKey, toList_canonicalKey, canonicalKey.go_go, canonicalKey]

theorem canonicalKey_ne_empty {key : String} (h : key ≠ "") : canonicalKey key ≠ "" := by
  intro hempty
  apply h
  have hlength : (canonicalKey key).toList.length = key.toList.length := by
    rw [toList_canonicalKey, ← List.length_map Text.isBlank,
      canonicalKey.map_go fun _ => Text.isBlank_of_isAlpha, List.length_map]
  rw [hempty] at hlength
  simpa using hlength.symm

theorem forall_canonicalKey {p : Char → Bool} (hp : ∀ c : Char, c.isAlpha → p c = false)
    {key : String} (h : ∀ c ∈ key.toList, p c = false)
    : ∀ c ∈ (canonicalKey key).toList, p c = false := by
  intro c hc
  have hmem := List.mem_map_of_mem (f := p) hc
  rw [toList_canonicalKey, canonicalKey.map_go hp] at hmem
  obtain ⟨d, hd, heq⟩ := List.mem_map.1 hmem
  rw [← heq]
  exact h d hd

namespace Headers

theorem trimmed_eq_self_iff {text : String}
    : trimmed text = text ↔ Text.trimBlank text.toList = text.toList := by
  rw [trimmed, ← String.toList_inj, String.toList_ofList]

theorem trimmed_of_trims {cs : List Char} {text : String} (h : Text.Trims cs text.toList)
    : trimmed text = text := by
  rw [trimmed_eq_self_iff, ← Text.trims_iff.1 h, Text.trimBlank_trimBlank]

structure Trim (key value : String) : Prop where
  named : key ≠ ""
  keyEnds : trimmed key = key
  valueEnds : trimmed value = value
  keyPlain : ∀ c ∈ key.toList, c ≠ ':' ∧ c ≠ '\n'
  valuePlain : ∀ c ∈ value.toList, c ≠ '\n'

theorem Trim.canonical {key value : String} (h : Trim key value)
    : Trim (canonicalKey key) value := by
  constructor
  case named => exact canonicalKey_ne_empty h.named
  case keyEnds =>
    rw [trimmed_eq_self_iff, toList_canonicalKey, Text.trimBlank_eq_self_iff]
    rw [canonicalKey.map_go fun c => Text.isBlank_of_isAlpha]
    rw [← Text.trimBlank_eq_self_iff, ← trimmed_eq_self_iff]
    exact h.keyEnds
  case valueEnds => exact h.valueEnds
  case keyPlain =>
    have hletter (c : Char) (hc : c.isAlpha) : decide (c = ':' ∨ c = '\n') = false := by
      rw [decide_eq_false_iff_not]
      rintro (rfl | rfl) <;> cases hc
    simpa using forall_canonicalKey hletter (by simpa using h.keyPlain)
  case valuePlain => exact h.valuePlain

end Headers

theorem FrameReader.HeaderLine.trim_of_ofBytes {line : Bytes} (hline : lineFeed ∉ line)
    {key value : String} (h : ofBytes (line ++ [lineFeed]) = .header key value)
    : Headers.Trim key value := by
  obtain ⟨before, after, hshows, hcolon, hkey, hvalue, hnamed⟩ := isHeader_of_ofBytes h
  have hplain := newline_not_mem_of_shows hline hshows
  constructor
  case named => exact hnamed
  case keyEnds => exact Headers.trimmed_of_trims hkey
  case valueEnds => exact Headers.trimmed_of_trims hvalue
  case keyPlain =>
    intro c hc
    have hbefore := hkey.subset hc
    constructor
    . rintro rfl
      exact hcolon hbefore
    . rintro rfl
      exact hplain (List.mem_append_left _ hbefore)
  case valuePlain =>
    rintro c hc rfl
    exact hplain (List.mem_append_right _ (List.mem_cons_of_mem _ (hvalue.subset hc)))

namespace Headers

theorem eq_of_entries {a b : Headers} (h : a.entries = b.entries) : a = b := by
  cases a
  cases b
  cases h
  rfl

def Settled (h : Headers) : Prop :=
  ∀ e ∈ h.entries, Trim e.1 e.2 ∧ canonicalKey e.1 = e.1

theorem settled_empty : empty.Settled := by
  intro e he
  cases he

theorem Settled.insert {h : Headers} (hh : h.Settled) {key value : String}
    (hline : Trim key value) : (h.insert key value).Settled := by
  intro e he
  rcases Keyed.mem_insert he with rfl | hmem
  . exact ⟨hline.canonical, canonicalKey_canonicalKey key⟩
  . exact hh e hmem

theorem Settled.keyRead {h : Headers} (hh : h.Settled)
    : ∀ e ∈ h.entries, Headers.keyRead e.1 = e.1 := by
  intro e he
  obtain ⟨htrim, hspelling⟩ := hh e he
  rw [Headers.keyRead, htrim.keyEnds, hspelling]

theorem Settled.received_eq {h : Headers} (hh : h.Settled) : h.received = h := by
  apply eq_of_entries
  have hsame : (h.entries.map fun e => (Headers.keyRead e.1, trimmed e.2)) = h.entries := by
    nth_rewrite 2 [← List.map_id h.entries]
    apply List.map_congr_left
    intro e he
    rw [hh.keyRead e he, (hh e he).1.valueEnds, id]
  rw [received, entries_foldl_takeIn, hsame]
  exact Keyed.ofList_of_ascending h.ascending

theorem Settled.named {h : Headers} (hh : h.Settled)
    : ∀ e ∈ h.entries, Text.trimBlank e.1.toList ≠ [] := by
  intro e he
  obtain ⟨htrim, -⟩ := hh e he
  rw [trimmed_eq_self_iff.1 htrim.keyEnds]
  simpa using htrim.named

def FreeOfReturns (h : Headers) : Prop :=
  ∀ e ∈ h.entries, '\r' ∉ e.1.toList ∧ '\r' ∉ e.2.toList

end Headers

theorem FrameReader.readHeaders.settled_of_go {s rest : Source} {first : Bool}
    {acc headers : Headers} (h : go s first acc = (.ok headers, rest)) (hacc : acc.Settled)
    : headers.Settled := by
  fun_induction go s first acc with
  | case1 => cases h
  | case2 => cases h
  | case3 => cases h
  | case4 => cases h
  | case5 =>
    cases h
    exact hacc
  | case6 => cases h
  | case7 s first acc line rest hline hleft key value hheader ih =>
    obtain ⟨before, rfl, hbefore⟩ := Source.of_takeLine_complete hline
    exact ih h (hacc.insert (HeaderLine.trim_of_ofBytes hbefore hheader))

theorem FrameReader.settled_of_readHeaders {s rest : Source} {headers : Headers}
    (h : readHeaders s = (.ok headers, rest)) : headers.Settled :=
  readHeaders.settled_of_go h Headers.settled_empty

namespace FrameWriter

theorem isWritable_iff {key value : String} (h : Headers.Trim key value)
    : isWritable key value ↔ '\r' ∉ key.toList ∧ '\r' ∉ value.toList := by
  constructor
  . intro hwritable
    obtain ⟨-, hkey, hvalue⟩ := of_isWritable hwritable
    constructor
    . intro hmem
      cases (hkey '\r' hmem).2
    . intro hmem
      cases hvalue '\r' hmem
  . rintro ⟨hkey, hvalue⟩
    have hkept : ∀ c ∈ key.toList, c ≠ ':' ∧ c ≠ '\r' ∧ c ≠ '\n' := by
      intro c hc
      obtain ⟨hcolon, hfeed⟩ := h.keyPlain c hc
      refine ⟨hcolon, ?_, hfeed⟩
      rintro rfl
      exact hkey hc
    have hline : ∀ c ∈ value.toList, c ≠ '\r' ∧ c ≠ '\n' := by
      intro c hc
      refine ⟨?_, h.valuePlain c hc⟩
      rintro rfl
      exact hvalue hc
    simpa [isWritable, breaksLine, h.named] using ⟨hkept, hline⟩

theorem invalidKey?_of_settled {headers : Headers} (h : headers.Settled)
    : (headers.FreeOfReturns → invalidKey? headers = none) ∧
        (¬headers.FreeOfReturns → ∃ key value, (key, value) ∈ headers.entries ∧
          ('\r' ∈ key.toList ∨ '\r' ∈ value.toList) ∧ invalidKey? headers = some key) := by
  cases hinvalid : headers.entries.find? fun e => !isWritable e.1 e.2 with
  | none =>
    have hkey : invalidKey? headers = none := by rw [invalidKey?, hinvalid, Option.map_none]
    refine ⟨fun _ => hkey, ?_⟩
    intro hreturns
    exfalso
    apply hreturns
    intro e he
    exact (isWritable_iff (h e he).1).1 (forall_isWritable hkey e he)
  | some e =>
    have hkey : invalidKey? headers = some e.1 := by rw [invalidKey?, hinvalid, Option.map_some]
    have he := List.mem_of_find?_eq_some hinvalid
    have hrefused : ¬isWritable e.1 e.2 := by simpa using List.find?_some hinvalid
    rw [isWritable_iff (h e he).1] at hrefused
    constructor
    . intro hfree
      exact absurd (hfree e he) hrefused
    . intro hreturns
      refine ⟨e.1, e.2, he, ?_, hkey⟩
      tauto

end FrameWriter

end JsonRpc
