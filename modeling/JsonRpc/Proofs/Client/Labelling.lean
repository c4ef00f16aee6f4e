import JsonRpc.Proofs.Client.Outbound
import JsonRpc.Proofs.Client.WireId
import JsonRpc.Proofs.Text.Word

/-!
The texts that calls are sent under. Main statement: the text of every number is read back in 64-bit
words without an overflow, and no two calls are sent under one text until the numbers start again.
-/

namespace JsonRpc

namespace WireId

open Text

theorem toNat_abs (id : Int64) : id.abs.toUInt64.toNat = id.toInt.natAbs := by
  change id.toBitVec.abs.toNat = id.toBitVec.toInt.natAbs
  have hlt := id.toBitVec.isLt
  rw [BitVec.toNat_abs, BitVec.toInt_eq_msb_cond]
  split <;> omega

theorem toList_format_of_words (id : Int64)
    : (format id).toList
        =
      (if id < 0 then ['-'] else []) ++ digits 16 id.abs.toUInt64.toNat := by
  have hsign : id < 0 ↔ id.toInt < 0 := by
    rw [Int64.lt_iff_toInt_lt, Int64.toInt_zero]
  simp only [toList_format, toNat_abs, hsign]

theorem readWord?_of_parse? {s : String} {id : Int64} (h : parse? s = some id)
    : readWord? 16 s.toList = some id := by
  unfold parse? at h
  rw [readWord?_eq]
  split at h
  . cases h
  . cases h
  . exact h

theorem format_injective : Function.Injective format :=
  fun _ _ => eq_of_format

theorem format_ofNat_eq_iff {m n : Nat}
    : format (Int64.ofNat m) = format (Int64.ofNat n) ↔ m % 2 ^ 64 = n % 2 ^ 64 := by
  rw [format_injective.eq_iff, ← Int64.toBitVec_inj, Int64.toBitVec_ofNat', Int64.toBitVec_ofNat',
    ← BitVec.toNat_inj, BitVec.toNat_ofNat, BitVec.toNat_ofNat]

end WireId

namespace Client

def labelled (c : Client) : List (Nat × Nat × Int64) :=
  c.numbered.reverse

theorem identifiers_eq (count : Nat)
    : identifiers count = ((List.range count).map fun k => Int64.ofNat (k + 1)).reverse := by
  induction count with
  | zero => rfl
  | succ count ih =>
    rw [identifiers, ih, List.range_succ, List.map_append, List.reverse_append]
    rfl

theorem Numbering.id_of_labelled {c : Client} (h : Numbering c) {place : Nat}
    {x : Nat × Nat × Int64} (hx : c.labelled[place]? = some x)
    : x.2.2 = Int64.ofNat (place + 1) := by
  have hids : c.labelled.map (·.2.2)
      = (List.range c.numbered.length).map fun k => Int64.ofNat (k + 1) := by
    rw [labelled, List.map_reverse, h.identifiers, identifiers_eq, List.reverse_reverse]
  have hplace : (c.labelled.map (·.2.2))[place]? = some x.2.2 := by
    rw [List.getElem?_map, hx, Option.map_some]
  rw [hids, List.getElem?_map] at hplace
  obtain ⟨k, hk, heq⟩ := Option.map_eq_some_iff.1 hplace
  obtain ⟨hlt, hk⟩ := List.getElem?_eq_some_iff.1 hk
  rw [List.getElem_range] at hk
  rw [← heq, hk]

theorem Sound.place_eq_iff {c : Client} (h : Sound c) {i j : Nat} {x y : Nat × Nat × Int64}
    (hx : c.labelled[i]? = some x) (hy : c.labelled[j]? = some y) : x.2.1 = y.2.1 ↔ i = j := by
  have hnodup : (c.labelled.map (·.2.1)).Nodup := by
    rw [labelled, List.map_reverse, List.nodup_reverse]
    exact h.numbered_nodup
  constructor
  . intro hticket
    have hlt : i < (c.labelled.map (·.2.1)).length := by
      rw [List.length_map]
      exact (List.getElem?_eq_some_iff.1 hx).1
    apply (List.getElem?_inj hlt hnodup).1
    rw [List.getElem?_map, List.getElem?_map, hx, hy, Option.map_some, Option.map_some, hticket]
  . rintro rfl
    rw [hx] at hy
    rw [Option.some.inj hy]

theorem Traced.labelled_of_transmitted {A : Event → Prop} {c : Client} (h : Traced A c)
    {line ticket : Nat} {message : Bytes} {request : Request}
    (hmem : .transmitted line ticket message ∈ c.history)
    (hcommand : c.commands[ticket]? = some (.call request))
    : ∃ (place : Nat) (id : Int64), c.labelled[place]? = some (line, ticket, id) ∧
        message = (request.numbered id).encode := by
  cases h.outbound line ticket message hmem with
  | borrowed hlend =>
    rw [hcommand] at hlend
    cases hlend
  | written number sent hrequest hbegun hmessage =>
    unfold requestOf? at hrequest
    rw [hcommand] at hrequest
    cases number with
    | none => cases hrequest
    | some id =>
      cases hrequest
      have hlabelled : (line, ticket, id) ∈ c.labelled := by
        apply List.mem_reverse.2
        exact List.mem_filterMap.2 ⟨_, hbegun, rfl⟩
      obtain ⟨place, hplace⟩ := List.getElem?_of_mem hlabelled
      exact ⟨place, id, hplace, hmessage⟩

/--
Every number is read back from its text; to read it digit by digit overflows nowhere, and to write
it takes the digits of an unsigned word. What leaves for a call in a run carries the text of the
call's number, and two calls have the same text exactly if a multiple of all numbers lies between
their places in the order.
-/
theorem calls_told_apart {config : ClientConfig} {events : List Event} {c : Client}
    (h : (start config).run? events = some c)
    : (∀ id, WireId.parse? (WireId.format id) = some id ∧
        Text.readWord? 16 (WireId.format id).toList = some id ∧
        (WireId.format id).toList
          = (if id < 0 then ['-'] else []) ++ Text.digits 16 id.abs.toUInt64.toNat) ∧
      Function.Injective WireId.format ∧
      (∀ line ticket message request, .transmitted line ticket message ∈ c.history →
        c.commands[ticket]? = some (.call request) →
        ∃ (place : Nat) (id : Int64), c.labelled[place]? = some (line, ticket, id) ∧
          message = (request.numbered id).encode) ∧
      ∀ (i j : Nat) x y, c.labelled[i]? = some x → c.labelled[j]? = some y →
        (x.2.1 = y.2.1 ↔ i = j) ∧
          (WireId.format x.2.2 = WireId.format y.2.2 ↔ i % 2 ^ 64 = j % 2 ^ 64) := by
  have hsound := sound_of_run? h
  have htraced : Traced (fun _ => True) c :=
    (Traced.start config).moves (run?_moves h fun _ _ => trivial)
  refine ⟨?_, WireId.format_injective, ?_, ?_⟩
  . intro id
    have hparse := WireId.parse?_format id
    exact ⟨hparse, WireId.readWord?_of_parse? hparse, WireId.toList_format_of_words id⟩
  . intro line ticket message request hmem hcommand
    exact htraced.labelled_of_transmitted hmem hcommand
  . intro i j x y hx hy
    refine ⟨hsound.place_eq_iff hx hy, ?_⟩
    rw [hsound.numbering.id_of_labelled hx, hsound.numbering.id_of_labelled hy,
      WireId.format_ofNat_eq_iff]
    omega

theorem calls_told_apart_after_loss
    : ∃ c, (start {}).run? answerAfterLoss = some c ∧
        ∃ id id', c.labelled[0]? = some (0, 0, id) ∧ c.labelled[1]? = some (1, 1, id') ∧
          WireId.format id ≠ WireId.format id' := by
  have hrun : ((start {}).run? answerAfterLoss).map labelled
      = some [(0, 0, 1), (1, 1, 2)] := by
    decide +kernel
  obtain ⟨c, hrun, hlabelled⟩ := Option.map_eq_some_iff.1 hrun
  obtain ⟨-, -, -, happart⟩ := calls_told_apart hrun
  have hfirst : c.labelled[0]? = some (0, 0, 1) := by rw [hlabelled]; rfl
  have hsecond : c.labelled[1]? = some (1, 1, 2) := by rw [hlabelled]; rfl
  refine ⟨c, hrun, 1, 2, hfirst, hsecond, ?_⟩
  rw [Ne, (happart 0 1 _ _ hfirst hsecond).2]
  decide

end Client

end JsonRpc
