import JsonRpc.Proofs.Run
import JsonRpc.Proofs.Text.Case
import JsonRpc.Proofs.Transport.HeadersRead

/-!
Header blocks as maps whose keys are texts in small letters. Main statement: whatever a block is
asked for, it answers as such a map, and it lists what is in the map, each key once and in its
canonical spelling.
-/

namespace JsonRpc

namespace canonicalKey

theorem toLower_go (upper : Bool) (cs : List Char)
    : (go upper cs).map Char.toLower = cs.map Char.toLower := by
  induction cs generalizing upper with
  | nil => rfl
  | cons c cs ih =>
    rw [go, List.map_cons, List.map_cons, ih]
    cases upper <;> simp

theorem go_toLower (upper : Bool) (cs : List Char)
    : go upper (cs.map Char.toLower) = go upper cs := by
  have hyphen (c : Char) : decide (c.toLower = '-') = decide (c = '-') := by
    have hletter (c : Char) (hc : c.isAlpha) : decide (c = '-') = false := by
      rw [decide_eq_false_iff_not]
      rintro rfl
      cases hc
    exact recased hletter false c
  induction cs generalizing upper with
  | nil => rfl
  | cons c cs ih =>
    rw [List.map_cons, go, go, hyphen, ih]
    cases upper <;> simp

end canonicalKey

theorem canonicalKey_eq_iff {a b : String}
    : canonicalKey a = canonicalKey b ↔ a.toLower = b.toLower := by
  rw [← String.toList_inj, ← String.toList_inj, toList_canonicalKey, toList_canonicalKey,
    Text.toList_toLower, Text.toList_toLower]
  constructor
  . intro h
    rw [← canonicalKey.toLower_go true a.toList, h, canonicalKey.toLower_go]
  . intro h
    rw [← canonicalKey.go_toLower true a.toList, h, canonicalKey.go_toLower]

namespace Headers

abbrev Caseless := String → Option String

namespace Caseless

def lengthKey : String := "content-length"

def perform (m : Caseless) : Operation → Option String × Caseless
  | .insert key value => (m key.toLower, Function.update m key.toLower (some value))
  | .get key => (m key.toLower, m)
  | .remove key => (m key.toLower, Function.update m key.toLower none)
  | .setContentLength length =>
    (none, Function.update m lengthKey (some (Text.decimal length.toNat)))

end Caseless

theorem toLower_contentLengthKey : contentLengthKey.toLower = Caseless.lengthKey := by
  rw [← String.toList_inj, Text.toList_toLower]
  decide

theorem get?_insert (h : Headers) (key value other : String)
    : (h.insert key value).get? other
        =
      if other.toLower = key.toLower then some value else h.get? other := by
  unfold insert get?
  split
  . next heq => rw [canonicalKey_eq_iff.2 heq, Keyed.find?_insert_self]
  . next hne => rw [Keyed.find?_insert_of_ne fun heq => hne (canonicalKey_eq_iff.1 heq).symm]

theorem get?_remove (h : Headers) (key other : String)
    : (h.remove key).get? other
        =
      if other.toLower = key.toLower then none else h.get? other := by
  unfold remove get? Keyed.erase
  rw [Keyed.find?_filter (canonicalKey other) (fun k => k ≠ canonicalKey key)]
  simp only [ne_eq, canonicalKey_eq_iff, decide_not, Bool.not_eq_true', decide_eq_false_iff_not,
    ite_not]

structure Holds (h : Headers) (m : Caseless) : Prop where
  get?_eq : ∀ key, h.get? key = m key.toLower
  spelled : ∀ e ∈ h.entries, canonicalKey e.1 = e.1

namespace Holds

variable {h : Headers} {m : Caseless}

theorem empty : Holds Headers.empty fun _ => none :=
  ⟨fun _ => rfl, nofun⟩

theorem insert (hm : h.Holds m) (key value : String)
    : (h.insert key value).Holds (Function.update m key.toLower (some value)) := by
  constructor
  case get?_eq =>
    intro other
    rw [get?_insert, Function.update_apply, hm.get?_eq]
  case spelled =>
    intro e he
    rcases Keyed.mem_insert he with rfl | hmem
    . exact canonicalKey_canonicalKey key
    . exact hm.spelled e hmem

theorem remove (hm : h.Holds m) (key : String)
    : (h.remove key).Holds (Function.update m key.toLower none) := by
  constructor
  case get?_eq =>
    intro other
    rw [get?_remove, Function.update_apply, hm.get?_eq]
  case spelled => exact fun e he => hm.spelled e (List.mem_filter.1 he).1

theorem setContentLength (hm : h.Holds m) (n : Nat)
    : (h.setContentLength n).Holds
        (Function.update m Caseless.lengthKey (some (Text.decimal n))) := by
  rw [← toLower_contentLengthKey]
  exact hm.insert contentLengthKey (Text.decimal n)

theorem perform (hm : h.Holds m) (op : Operation)
    : (h.perform op).1 = (m.perform op).1 ∧ (h.perform op).2.Holds (m.perform op).2 := by
  cases op with
  | insert key value => exact ⟨hm.get?_eq key, hm.insert key value⟩
  | get key => exact ⟨hm.get?_eq key, hm⟩
  | remove key => exact ⟨hm.get?_eq key, hm.remove key⟩
  | setContentLength length => exact ⟨rfl, hm.setContentLength length.toNat⟩

theorem mem_entries_iff (hm : h.Holds m) {key value : String}
    : (key, value) ∈ h.entries ↔ canonicalKey key = key ∧ m key.toLower = some value := by
  rw [← hm.get?_eq, get?]
  constructor
  . intro hmem
    have hkey := hm.spelled _ hmem
    exact ⟨hkey, by rwa [hkey, Keyed.find?_eq_some_iff h.ascending]⟩
  . rintro ⟨hkey, hfind⟩
    rwa [hkey, Keyed.find?_eq_some_iff h.ascending] at hfind

theorem pairwise_entries (hm : h.Holds m)
    : h.entries.Pairwise fun e f => e.1 < f.1 ∧ ¬Text.SameUpToCase e.1 f.1 := by
  apply h.ascending.imp_of_mem
  intro e f he hf hlt
  refine ⟨hlt, ?_⟩
  rw [← Text.toLower_eq_toLower_iff, ← canonicalKey_eq_iff, hm.spelled e he, hm.spelled f hf]
  exact fun heq => String.lt_irrefl _ (heq ▸ hlt)

theorem contentLength?_eq (hm : h.Holds m)
    : h.contentLength? = (m Caseless.lengthKey).bind declared? := by
  rw [← toLower_contentLengthKey, ← hm.get?_eq]
  rfl

end Holds

theorem holds_tellAll (ops : List Operation)
    : (tellAll perform empty ops).1 = (tellAll Caseless.perform (fun _ => none) ops).1 ∧
        (tellAll perform empty ops).2.Holds (tellAll Caseless.perform (fun _ => none) ops).2 := by
  apply tellAll_of_alike
  . intro h m hm op _
    exact hm.perform op
  . exact Holds.empty

/--
Keys have one canonical spelling exactly if they are the same up to the case of ASCII letters. A
block that is filled and asked by any operations answers as a map of texts in small letters. It
lists the entries of the map, in ascending order of their canonical spellings and none twice, and
its length is the one that was set.
-/
theorem answers_as_caseless
    : (∀ a b, canonicalKey a = canonicalKey b ↔ Text.SameUpToCase a b) ∧
        (∀ key, canonicalKey (canonicalKey key) = canonicalKey key) ∧
        ∀ ops, (tellAll perform empty ops).1 = (tellAll Caseless.perform (fun _ => none) ops).1 ∧
          (∀ key value, (key, value) ∈ (tellAll perform empty ops).2.entries ↔
            canonicalKey key = key ∧
              (tellAll Caseless.perform (fun _ => none) ops).2 key.toLower = some value) ∧
          (tellAll perform empty ops).2.entries.Pairwise
            (fun e f => e.1 < f.1 ∧ ¬Text.SameUpToCase e.1 f.1) ∧
          (tellAll perform empty ops).2.contentLength?
            = ((tellAll Caseless.perform (fun _ => none) ops).2 Caseless.lengthKey).bind declared? ∧
          ∀ length : UInt64,
            ((tellAll perform empty ops).2.perform (.setContentLength length)).2.contentLength?
              = some length.toNat := by
  refine ⟨?_, canonicalKey_canonicalKey, ?_⟩
  . intro a b
    rw [canonicalKey_eq_iff, Text.toLower_eq_toLower_iff]
  . intro ops
    obtain ⟨htold, hm⟩ := holds_tellAll ops
    refine ⟨htold, fun key value => hm.mem_entries_iff, hm.pairwise_entries,
      hm.contentLength?_eq, ?_⟩
    intro length
    exact contentLength?_setContentLength _ length.toNat_lt

end Headers

end JsonRpc
