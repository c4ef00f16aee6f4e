import JsonRpc.Keyed
import Mathlib.Data.List.Nodup

/-!
Lookups in association lists. A list that ascends by key is determined by what is found in it.
-/

namespace JsonRpc.Keyed

variable {α : Type}

theorem find?_eq_map (key : String) (entries : List (String × α))
    : find? key entries = (entries.find? fun e => e.1 = key).map (·.2) := by
  induction entries with
  | nil => rfl
  | cons e entries ih => by_cases h : e.1 = key <;> simp [find?, h, ih]

theorem find?_append (key : String) (xs ys : List (String × α))
    : find? key (xs ++ ys) = (find? key xs).or (find? key ys) := by
  simp only [find?_eq_map, List.find?_append, Option.map_or]

theorem find?_insert (key other : String) (value : α) (entries : List (String × α))
    : find? other (insert key value entries)
        =
      (find? other [(key, value)]).or (find? other entries) := by
  by_cases h : key = other
  . subst h
    simp [find?_insert_self, find?]
  . simp [find?_insert_of_ne h, find?, h]

theorem find?_foldl_insert (key : String) (entries acc : List (String × α))
    : find? key (entries.foldl (fun acc e => insert e.1 e.2 acc) acc)
        =
      (find? key entries.reverse).or (find? key acc) := by
  induction entries generalizing acc with
  | nil => rfl
  | cons e entries ih =>
    rw [List.foldl_cons, ih, find?_insert, List.reverse_cons, find?_append, Option.or_assoc]

theorem find?_ofList (key : String) (entries : List (String × α))
    : find? key (ofList entries) = find? key entries.reverse := by
  unfold ofList
  rw [find?_foldl_insert]
  cases find? key entries.reverse <;> rfl

theorem find?_eq_none {key : String} {entries : List (String × α)}
    (h : ∀ e ∈ entries, e.1 ≠ key) : find? key entries = none := by
  rw [find?_eq_map, List.find?_eq_none.2 (by simpa using h)]
  rfl

theorem find?_ne_none {entries : List (String × α)} {e : String × α} (he : e ∈ entries)
    : find? e.1 entries ≠ none := by
  intro hnone
  rw [find?_eq_map, Option.map_eq_none_iff, List.find?_eq_none] at hnone
  exact hnone e he (by simp)

theorem mem_of_find? {key : String} {value : α} {entries : List (String × α)}
    (h : find? key entries = some value) : (key, value) ∈ entries := by
  rw [find?_eq_map] at h
  obtain ⟨e, he, rfl⟩ := Option.map_eq_some_iff.1 h
  have hkey : e.1 = key := by simpa using List.find?_some he
  rw [← hkey]
  exact List.mem_of_find?_eq_some he

theorem find?_filter (key : String) (p : String → Bool) (entries : List (String × α))
    : find? key (entries.filter fun e => p e.1) = if p key then find? key entries else none := by
  induction entries with
  | nil => simp [find?]
  | cons e entries ih =>
    rw [List.filter_cons, find?]
    by_cases hkey : e.1 = key
    . subst hkey
      by_cases hp : p e.1
      . simp [hp, find?]
      . simp [hp, ih]
    . by_cases hp : p e.1
      . simp [hp, hkey, find?, ih]
      . simp [hp, hkey, ih]

theorem foldl_erase (keys : List String) (entries : List (String × α))
    : keys.foldl (fun entries key => erase key entries) entries
        =
      entries.filter fun e => !keys.contains e.1 := by
  induction keys generalizing entries with
  | nil => exact (List.filter_eq_self.2 fun _ _ => rfl).symm
  | cons key keys ih =>
    rw [List.foldl_cons, ih, erase, List.filter_filter]
    apply List.filter_congr
    intro e _
    by_cases hkey : e.1 = key <;> simp [hkey]

theorem mem_of_mem_foldl_erase {keys : List String} {entries : List (String × α)} {e : String × α}
    (he : e ∈ keys.foldl (fun entries key => erase key entries) entries) : e ∈ entries := by
  rw [foldl_erase] at he
  exact (List.mem_filter.1 he).1

theorem ascending_foldl_erase (keys : List String) {entries : List (String × α)}
    (h : Ascending entries)
    : Ascending (keys.foldl (fun entries key => erase key entries) entries) := by
  rw [foldl_erase]
  exact h.sublist List.filter_sublist

instance (entries : List (String × α)) : Decidable (Ascending entries) :=
  inferInstanceAs (Decidable (entries.Pairwise fun a b => a.1 < b.1))

theorem insert_of_last {key : String} (value : α) {entries : List (String × α)}
    (h : ∀ e ∈ entries, e.1 < key) : insert key value entries = entries ++ [(key, value)] := by
  induction entries with
  | nil => rfl
  | cons e entries ih =>
    have hlt : e.1 < key := h e List.mem_cons_self
    have hrest := ih fun e he => h e (List.mem_cons_of_mem _ he)
    have hne : key ≠ e.1 := by
      intro heq
      exact String.lt_irrefl _ (heq ▸ hlt)
    rw [insert, if_neg (String.lt_asymm hlt), if_neg hne, hrest]
    rfl

theorem ofList_of_ascending {entries : List (String × α)} (h : Ascending entries)
    : ofList entries = entries := by
  have hgo (acc entries : List (String × α)) (h : Ascending (acc ++ entries))
      : entries.foldl (fun acc e => insert e.1 e.2 acc) acc = acc ++ entries := by
    induction entries generalizing acc with
    | nil => simp
    | cons e entries ih =>
      have hlast : ∀ e' ∈ acc, e'.1 < e.1 := fun e' he' =>
        (List.pairwise_append.1 h).2.2 e' he' e List.mem_cons_self
      have happend : acc ++ e :: entries = acc ++ [e] ++ entries := by simp
      rw [List.foldl_cons, insert_of_last e.2 hlast, happend]
      rw [happend] at h
      exact ih (acc ++ [e]) h
  exact hgo [] entries h

theorem nodup_keys {entries : List (String × α)} (h : Ascending entries)
    : (entries.map (·.1)).Nodup := by
  apply List.pairwise_map.2
  apply h.imp
  intro a b hlt heq
  exact String.lt_irrefl _ (heq ▸ hlt)

theorem find?_eq_some_iff {key : String} {value : α} {entries : List (String × α)}
    (h : Ascending entries) : find? key entries = some value ↔ (key, value) ∈ entries := by
  constructor
  . exact mem_of_find?
  . intro hmem
    obtain ⟨value', hfind⟩ := Option.ne_none_iff_exists'.1 (find?_ne_none hmem)
    have hsame : (key, value) = (key, value') :=
      List.inj_on_of_nodup_map (nodup_keys h) hmem (mem_of_find? hfind) rfl
    cases hsame
    exact hfind

theorem find?_of_lt {key : String} {entries : List (String × α)}
    (h : ∀ e ∈ entries, key < e.1) : find? key entries = none := by
  apply find?_eq_none
  intro e he heq
  exact String.lt_irrefl _ (heq ▸ h e he)

theorem find?_of_lt_head {key : String} {e : String × α} {entries : List (String × α)}
    (h : Ascending (e :: entries)) (hlt : key < e.1) : find? key (e :: entries) = none := by
  apply find?_of_lt
  intro e' he'
  rcases List.mem_cons.1 he' with rfl | hmem
  . exact hlt
  . exact String.lt_trans hlt (List.rel_of_pairwise_cons h hmem)

theorem eq_of_find? {xs ys : List (String × α)} (hxs : Ascending xs) (hys : Ascending ys)
    (h : ∀ key, find? key xs = find? key ys) : xs = ys := by
  induction xs generalizing ys with
  | nil =>
    cases ys with
    | nil => rfl
    | cons y ys =>
      have := h y.1
      simp [find?] at this
  | cons x xs ih =>
    cases ys with
    | nil =>
      have := h x.1
      simp [find?] at this
    | cons y ys =>
      have hx : ¬ x.1 < y.1 := by
        intro hlt
        have := h x.1
        rw [find?_of_lt_head hys hlt] at this
        simp [find?] at this
      have hy : ¬ y.1 < x.1 := by
        intro hlt
        have := h y.1
        rw [find?_of_lt_head hxs hlt] at this
        simp [find?] at this
      have hkey : x.1 = y.1 := String.le_antisymm (String.not_lt.1 hy) (String.not_lt.1 hx)
      have hvalue : x.2 = y.2 := by
        have := h x.1
        simpa [find?, hkey] using this
      rw [Prod.ext hkey hvalue]
      congr 1
      apply ih (List.Pairwise.of_cons hxs) (List.Pairwise.of_cons hys)
      intro key
      by_cases heq : x.1 = key
      . subst heq
        rw [find?_of_lt fun e he => List.rel_of_pairwise_cons hxs he,
          find?_of_lt fun e he => hkey ▸ List.rel_of_pairwise_cons hys he]
      . have := h key
        rwa [find?, find?, if_neg heq, if_neg (hkey ▸ heq)] at this

end JsonRpc.Keyed
