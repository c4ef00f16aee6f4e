import Mathlib.Data.List.Forall2

/-!
Texts that are the same up to the case of ASCII letters. Every other character stands for itself
only.
-/

namespace JsonRpc.Text

def Capital (c d : Char) : Prop :=
  65 ≤ c.toNat ∧ c.toNat ≤ 90 ∧ d.toNat = c.toNat + 32

def SameLetter (c d : Char) : Prop :=
  c = d ∨ Capital c d ∨ Capital d c

def SameUpToCase (a b : String) : Prop :=
  List.Forall₂ SameLetter a.toList b.toList

theorem toNat_toLower (c : Char)
    : c.toLower.toNat = if 65 ≤ c.toNat ∧ c.toNat ≤ 90 then c.toNat + 32 else c.toNat := by
  have hcode : c.val.toNat = c.toNat := rfl
  unfold Char.toLower
  split
  . next h =>
    have hcapital : 65 ≤ c.toNat ∧ c.toNat ≤ 90 := by simpa [UInt32.le_iff_toNat_le] using h
    rw [if_pos hcapital]
    change (c.val + 32).toNat = c.toNat + 32
    rw [UInt32.toNat_add, hcode]
    exact Nat.mod_eq_of_lt (by simp; omega)
  . next h =>
    have hother : ¬(65 ≤ c.toNat ∧ c.toNat ≤ 90) := by simpa [UInt32.le_iff_toNat_le] using h
    rw [if_neg hother]

theorem toLower_eq_iff {c d : Char} : c.toLower = d.toLower ↔ SameLetter c d := by
  unfold SameLetter Capital
  rw [← Char.toNat_inj, ← Char.toNat_inj, toNat_toLower, toNat_toLower]
  split <;> split <;> omega

theorem toLower_eq_iff_of_lt {c d : Char} (h : d.toNat < 65) : c.toLower = d ↔ c = d := by
  rw [← Char.toNat_inj, ← Char.toNat_inj, toNat_toLower]
  split <;> omega

theorem map_toLower_eq_iff {cs ds : List Char} (h : ∀ d ∈ ds, d.toNat < 65)
    : cs.map Char.toLower = ds ↔ cs = ds := by
  induction ds generalizing cs with
  | nil => simp
  | cons d ds ih =>
    obtain ⟨hd, hds⟩ := List.forall_mem_cons.1 h
    cases cs with
    | nil => simp
    | cons c cs =>
      rw [List.map_cons, List.cons.injEq, List.cons.injEq, toLower_eq_iff_of_lt hd, ih hds]

theorem toList_toLower (s : String) : s.toLower.toList = s.toList.map Char.toLower := by
  exact String.toList_map

theorem toLower_eq_toLower_iff {a b : String} : a.toLower = b.toLower ↔ SameUpToCase a b := by
  rw [← String.toList_inj, toList_toLower, toList_toLower, ← List.forall₂_eq_eq_eq,
    List.forall₂_map_left_iff, List.forall₂_map_right_iff]
  simp only [toLower_eq_iff]
  rfl

end JsonRpc.Text
