/-!
Association lists kept in ascending order of their text keys. The order is that of code points,
which is also the order of the keys' UTF-8 bytes.
-/

namespace JsonRpc.Keyed

variable {α : Type}

def find? (key : String) : List (String × α) → Option α
  | [] => none
  | (k, v) :: rest => if k = key then some v else find? key rest

def insert (key : String) (value : α) : List (String × α) → List (String × α)
  | [] => [(key, value)]
  | (k, v) :: rest =>
    if key < k then
      (key, value) :: (k, v) :: rest
    else if key = k then
      (key, value) :: rest
    else
      (k, v) :: insert key value rest

def erase (key : String) (entries : List (String × α)) : List (String × α) :=
  entries.filter (·.1 ≠ key)

def ofList (entries : List (String × α)) : List (String × α) :=
  entries.foldl (fun acc e => insert e.1 e.2 acc) []

def Ascending (entries : List (String × α)) : Prop :=
  entries.Pairwise (fun a b => a.1 < b.1)

theorem find?_insert_self (key : String) (value : α) (entries : List (String × α)) :
    find? key (insert key value entries) = some value := by
  induction entries with
  | nil => simp [insert, find?]
  | cons e rest ih =>
    obtain ⟨k, v⟩ := e
    rw [insert]
    split
    . simp [find?]
    . split
      . simp [find?]
      . next _ hne =>
        simp [find?, Ne.symm hne, ih]

theorem find?_insert_of_ne {key other : String} (h : key ≠ other) (value : α)
    (entries : List (String × α)) :
    find? other (insert key value entries) = find? other entries := by
  induction entries with
  | nil => simp [insert, find?, h]
  | cons e rest ih =>
    obtain ⟨k, v⟩ := e
    rw [insert]
    split
    . simp [find?, h]
    . split
      . next _ heq =>
        simp [find?, h, ← heq]
      . simp [find?, ih]

theorem mem_insert {key : String} {value : α} {e : String × α} {entries : List (String × α)} :
    e ∈ insert key value entries → e = (key, value) ∨ e ∈ entries := by
  induction entries with
  | nil => simp [insert]
  | cons e' rest ih =>
    obtain ⟨k, v⟩ := e'
    rw [insert]
    split
    . simp
    . split <;> grind

theorem ascending_nil : Ascending ([] : List (String × α)) :=
  List.Pairwise.nil

theorem ascending_insert (key : String) (value : α) {entries : List (String × α)}
    (h : Ascending entries) : Ascending (insert key value entries) := by
  induction entries with
  | nil => simp [insert, Ascending]
  | cons e rest ih =>
    obtain ⟨k, v⟩ := e
    have hrest : Ascending rest := List.Pairwise.of_cons h
    have hlt : ∀ e ∈ rest, k < e.1 :=
      fun _ he => List.rel_of_pairwise_cons h he
    rw [insert]
    split
    . next hk =>
      refine List.pairwise_cons.2 ⟨?_, h⟩
      intro e he
      rcases List.mem_cons.1 he with rfl | he
      . exact hk
      . exact String.lt_trans hk (hlt e he)
    . split
      . next _ heq =>
        subst heq
        exact List.pairwise_cons.2 ⟨hlt, hrest⟩
      . next hge hne =>
        refine List.pairwise_cons.2 ⟨?_, ih hrest⟩
        intro e he
        rcases mem_insert he with rfl | he
        . exact Decidable.byContradiction fun hnot =>
            hne (String.le_antisymm (String.not_lt.1 hnot) (String.not_lt.1 hge))
        . exact hlt e he

theorem ascending_erase (key : String) {entries : List (String × α)} (h : Ascending entries) :
    Ascending (erase key entries) :=
  List.Pairwise.sublist List.filter_sublist h

theorem ascending_ofList (entries : List (String × α)) : Ascending (ofList entries) := by
  have go : ∀ (es acc : List (String × α)), Ascending acc →
      Ascending (es.foldl (fun acc e => insert e.1 e.2 acc) acc) := by
    intro es
    induction es with
    | nil => exact fun _ h => h
    | cons e es ih => exact fun acc h => ih _ (ascending_insert e.1 e.2 h)
  exact go entries [] ascending_nil

end JsonRpc.Keyed
