import JsonRpc.Proofs.Client.Writing
import Mathlib.Algebra.Group.Nat.Defs

/-!
The identifiers of calls. They are numbered from one across all lines, so that no two calls share an
identifier until the 64-bit numbers run out.
-/

namespace JsonRpc.Client

variable {A : Event → Prop}

def Occurrence.numbered? : Occurrence → Option (Nat × Nat × Int64)
  | .begun line ticket (some id) => some (line, ticket, id)
  | _ => none

def numbered (c : Client) : List (Nat × Nat × Int64) :=
  c.history.filterMap Occurrence.numbered?

def identifiers : Nat → List Int64
  | 0 => []
  | count + 1 => Int64.ofNat (count + 1) :: identifiers count

theorem mem_identifiers {count : Nat} {id : Int64}
    : id ∈ identifiers count ↔ ∃ k, k < count ∧ id = Int64.ofNat (k + 1) := by
  induction count with
  | zero => simp [identifiers]
  | succ count ih =>
    rw [identifiers, List.mem_cons, ih]
    constructor
    . rintro (rfl | ⟨k, hk, rfl⟩)
      . exact ⟨count, by omega, rfl⟩
      . exact ⟨k, by omega, rfl⟩
    . rintro ⟨k, hk, rfl⟩
      by_cases hlast : k = count
      . exact .inl (by rw [hlast])
      . exact .inr ⟨k, by omega, rfl⟩

theorem lt_of_mem_identifiers {count : Nat} {id : Int64} (hcount : count + 1 < 2 ^ 63)
    (hid : id ∈ identifiers count) : id < Int64.ofNat (count + 1) := by
  obtain ⟨k, hk, rfl⟩ := mem_identifiers.1 hid
  exact (Int64.ofNat_lt_iff_lt (by omega) hcount).2 (by omega)

theorem ofNat_ne_ofNat {m n : Nat} (hlt : m < n) (hround : n < m + 2 ^ 64)
    : Int64.ofNat m ≠ Int64.ofNat n := by
  intro heq
  have hbits := congrArg (fun i : Int64 => i.toBitVec.toNat) heq
  simp only [Int64.toBitVec_ofNat', BitVec.toNat_ofNat] at hbits
  omega

theorem identifiers_nodup {count : Nat} (hcount : count ≤ 2 ^ 64) : (identifiers count).Nodup := by
  induction count with
  | zero => exact List.nodup_nil
  | succ count ih =>
    rw [identifiers, List.nodup_cons]
    refine ⟨?_, ih (by omega)⟩
    intro hmem
    obtain ⟨k, hk, heq⟩ := mem_identifiers.1 hmem
    exact ofNat_ne_ofNat (by omega) (by omega) heq.symm

theorem Move.numbered_suffix {c c' : Client} (h : Move A c c')
    : c.numbered.IsSuffix c'.numbered := by
  exact h.grows.2.filterMap _

theorem Sent.mem_numbered {c : Client} {line ticket : Nat} {id : Int64}
    (h : Sent c.commands c.history line ticket (some id)) : (line, ticket, id) ∈ c.numbered := by
  obtain ⟨request, -, hsub⟩ := h
  apply List.mem_filterMap.2
  exact ⟨.begun line ticket (some id), hsub.subset (by simp), rfl⟩

structure Numbering (c : Client) : Prop where
  next : c.nextId = Int64.ofNat (c.numbered.length + 1)
  identifiers : c.numbered.map (·.2.2) = identifiers c.numbered.length
  apart : ∀ line job id, c.phase = .writing line job → job.id = some id →
    ∃ earlier, c.numbered = (line, job.ticket, id) :: earlier ∧
      ∀ e ∈ c.pending, e.1 ∈ earlier.map (·.2.2)

namespace Numbering

attribute [local simp] numbered Occurrence.numbered? List.filterMap_cons Client.identifiers
  Function.comp_def

theorem start (config : ClientConfig) : Numbering (start config) := by
  constructor <;> simp [Client.start]

theorem numbered_move {c c' : Client} (hmove : Move A c c')
    : (c'.numbered = c.numbered ∧ c'.nextId = c.nextId) ∨
        ∃ line ticket rest request, c.Taking line ticket rest ∧ ticket ∉ c.abandoned ∧
          c'.numbered = (line, ticket, c.nextId) :: c.numbered ∧ c'.nextId = c.nextId + 1 ∧
          c'.phase = .writing line ⟨ticket, some c.nextId, request, false⟩ ∧
          c'.pending = c.pending := by
  cases hmove with
  | beginCall line ticket rest request htake hhand hcommand hpresent =>
    exact .inr ⟨line, ticket, rest, _, htake, hpresent, by simp, rfl, rfl, rfl⟩
  | read line before after arrival => cases arrival <;> exact .inl (by simp [Except.toOption])
  | hangUp => cases hhand : c.hand <;> exact .inl (by simp)
  | finishCall line job id => cases hlookup : c.pending.lookup id <;> exact .inl (by simp)
  | _ => exact .inl (by simp)

theorem apart_move {c c' : Client} (h : Numbering c) (hwriting : Writing c) (hmove : Move A c c')
    (line : Nat) (job : Job) (id : Int64) (hphase : c'.phase = .writing line job)
    (hid : job.id = some id)
    : ∃ earlier, c'.numbered = (line, job.ticket, id) :: earlier ∧
        ∀ e ∈ c'.pending, e.1 ∈ earlier.map (·.2.2) := by
  have hold : c.phase = .writing line job → c'.numbered = c.numbered → c'.pending = c.pending →
      ∃ earlier, c'.numbered = (line, job.ticket, id) :: earlier ∧
        ∀ e ∈ c'.pending, e.1 ∈ earlier.map (·.2.2) := by
    intro hphase hnumbered hpending
    rw [hnumbered, hpending]
    exact h.apart line job id hphase hid
  cases hmove with
  -- A write in progress keeps its number; only a call that begins takes the next one.
  | beginCall line' ticket rest request htake =>
    cases hphase
    cases hid
    refine ⟨c.numbered, by simp, ?_⟩
    intro e he
    obtain ⟨line'', -, hsent⟩ := hwriting.pending e he
    exact List.mem_map_of_mem hsent.mem_numbered
  | transmit line' job' hevent hphase' =>
    cases hphase
    exact h.apart line job' id hphase' hid
  | connect | backOff | attempt | stop | leave | hangUp | finishCall | finishNotify | breakOff =>
    cases hphase
  | beginNotify =>
    cases hphase
    cases hid
  | dispatch line' before message rest hphase' => simp [hphase'] at hphase
  | read line' before after arrival =>
    exact hold hphase (by cases arrival <;> simp [Except.toOption]) rfl
  | _ => exact hold hphase (by simp) rfl

theorem move {c c' : Client} (h : Numbering c) (hwriting : Writing c) (hmove : Move A c c')
    : Numbering c' := by
  rcases numbered_move hmove with ⟨hnumbered, hnext⟩ | ⟨line, ticket, _, _, -, -, hnumbered, hnext, -⟩
  . constructor
    . rw [hnumbered, hnext, h.next]
    . rw [hnumbered, h.identifiers]
    . exact h.apart_move hwriting hmove
  . constructor
    . rw [hnumbered, hnext, h.next, List.length_cons]
      exact (Int64.ofNat_add _ 1).symm
    . rw [hnumbered, List.map_cons, h.identifiers, List.length_cons, Client.identifiers, h.next]
    . exact h.apart_move hwriting hmove

end Numbering

namespace Numbering

section Unique

variable {c : Client} (h : Numbering c) (hcount : c.numbered.length ≤ 2 ^ 64)

include h hcount

theorem ids_nodup : (c.numbered.map (·.2.2)).Nodup := by
  rw [h.identifiers]
  exact identifiers_nodup hcount

theorem eq_of_mem {x y : Nat × Nat × Int64} (hx : x ∈ c.numbered) (hy : y ∈ c.numbered)
    (hid : x.2.2 = y.2.2) : x = y := by
  exact List.inj_on_of_nodup_map (h.ids_nodup hcount) hx hy hid

theorem lookup_of_writing {line : Nat} {job : Job} {id : Int64}
    (hphase : c.phase = .writing line job) (hid : job.id = some id)
    : c.pending.lookup id = none := by
  obtain ⟨earlier, hnumbered, hpending⟩ := h.apart line job id hphase hid
  have hnodup := h.ids_nodup hcount
  rw [hnumbered, List.map_cons, List.nodup_cons] at hnodup
  rw [List.lookup_eq_none_iff]
  intro e he
  have hmem := hpending e he
  have hne : id ≠ e.1 := by
    rintro rfl
    exact hnodup.1 hmem
  simpa using hne

end Unique

theorem lt_nextId {c : Client} (h : Numbering c) (hcount : c.numbered.length + 1 < 2 ^ 63)
    {x : Nat × Nat × Int64} (hx : x ∈ c.numbered) : x.2.2 < c.nextId := by
  rw [h.next]
  apply lt_of_mem_identifiers hcount
  rw [← h.identifiers]
  exact List.mem_map_of_mem hx

end Numbering

end JsonRpc.Client
