import JsonRpc.Proofs.Transport.Source
import JsonRpc.Transport.Sink

/-!
What a byte stream accepts of what is written to it or copied into it: all of it, or, at a failure,
a part from the front.
-/

namespace JsonRpc.Sink

structure Took (before : Sink) (part : Bytes) (after : Sink) : Prop where
  accepted : after.accepted = before.accepted ++ part
  policy : after.policy = before.policy

namespace Took

theorem nothing {s s' : Sink} (hpieces : s'.pieces = s.pieces) (hpolicy : s'.policy = s.policy)
    : Took s [] s' := by
  constructor
  . unfold Sink.accepted
    rw [hpieces, List.append_nil]
  . exact hpolicy

theorem trans {a b c : Sink} {first second : Bytes} (h : Took a first b) (h' : Took b second c)
    : Took a (first ++ second) c := by
  constructor
  . rw [h'.accepted, h.accepted, List.append_assoc]
  . rw [h'.policy, h.policy]

end Took

theorem took_of_write {s s' : Sink} {bytes : Bytes} {n : Nat} (h : s.write bytes = (.ok n, s'))
    : Took s (bytes.take n) s' := by
  unfold write at h
  dsimp only at h
  split at h
  . cases h
  . cases h
    constructor
    . simp [accepted]
    . rfl

theorem took_of_write_error {s s' : Sink} {bytes : Bytes} {cause : IoFault}
    (h : s.write bytes = (.error cause, s')) : Took s [] s' := by
  unfold write at h
  dsimp only at h
  split at h
  . cases h
    exact .nothing rfl rfl
  . cases h

theorem took_flush (s : Sink) : Took s [] s.flush.2 :=
  .nothing rfl rfl

theorem took_writeAll (stuck : String) (s : Sink) (bytes : Bytes)
    : ∃ part, part <+: bytes ∧ Took s part (s.writeAll stuck bytes).2 ∧
        ((s.writeAll stuck bytes).1 = .ok () → part = bytes) := by
  fun_induction writeAll with
  | case1 s => exact ⟨[], List.nil_prefix, .nothing rfl rfl, fun _ => rfl⟩
  | case2 s b rest cause s' hwrite =>
    exact ⟨[], List.nil_prefix, took_of_write_error hwrite, by simp⟩
  | case3 s b rest s' hwrite => exact ⟨[], List.nil_prefix, took_of_write hwrite, by simp⟩
  | case4 s b rest n s' hwrite ih =>
    obtain ⟨part, hpart, htook, hall⟩ := ih
    have hsplit : (b :: rest).take (n + 1) ++ rest.drop n = b :: rest := by simp
    refine ⟨(b :: rest).take (n + 1) ++ part, ?_, (took_of_write hwrite).trans htook, ?_⟩
    . have := (List.prefix_append_right_inj ((b :: rest).take (n + 1))).2 hpart
      rw [hsplit] at this
      exact this
    . intro hok
      rw [hall hok, hsplit]

theorem took_finishCopy (s : Sink) (count : Nat)
    : Took s [] (s.finishCopy count).2 ∧ ∀ n, (s.finishCopy count).1 = .ok n → n = count := by
  have htook := took_flush s
  unfold finishCopy
  split
  . next cause s' hflush =>
    rw [hflush] at htook
    exact ⟨htook, by simp⟩
  . next s' hflush =>
    rw [hflush] at htook
    exact ⟨htook, by simp [eq_comm]⟩

theorem copyStep_pos {limit : Option Nat} (h : limit ≠ some 0) : 0 < copyStep limit := by
  cases limit with
  | none => decide
  | some left =>
    have : left ≠ 0 := by simpa using h
    simp only [copyStep, copyBuffer]
    omega

theorem copyStep_le {limit : Option Nat} {left : Nat} (h : limit = some left)
    : copyStep limit ≤ left := by
  subst h
  apply Nat.min_le_left

theorem took_copy.go (source : Source) (limit : Option Nat) (count : Nat) (s : Sink)
    : ∃ part, part <+: source.upTo limit ∧ Took s part (copy.go source limit count s).2 ∧
        ∀ n, (copy.go source limit count s).1 = .ok n →
          part = source.upTo limit ∧ n = count + part.length := by
  fun_induction copy.go with
  | case1 source count s =>
    obtain ⟨htook, hcount⟩ := took_finishCopy s count
    exact ⟨[], List.nil_prefix, htook, fun n hn => ⟨by simp [Source.upTo], hcount n hn⟩⟩
  | case2 source limit count s hlimit hfill =>
    obtain ⟨htook, hcount⟩ := took_finishCopy s count
    refine ⟨[], List.nil_prefix, htook, fun n hn => ⟨?_, hcount n hn⟩⟩
    rw [Source.upTo_of_ended hfill]
  | case3 source limit count s hlimit cause rest hfill =>
    exact ⟨[], List.nil_prefix, .nothing rfl rfl, by simp⟩
  | case4 source limit count s hlimit bytes rest hfill taken hnone =>
    have hpos := copyStep_pos hlimit
    have hbytes := List.length_pos_iff.2 (Source.ne_nil_of_fill_data hfill)
    simp only [taken, List.length_take] at hnone
    omega
  | case5 source limit count s hlimit bytes rest hfill taken n hlength cause s' hwrite =>
    obtain ⟨part, hpart, htook, -⟩ := took_writeAll copyStuck s taken
    rw [hwrite] at htook
    refine ⟨part, hpart.trans ?_, htook, by simp⟩
    rw [Source.upTo_eq_take_append hfill fun left => copyStep_le]
    apply List.prefix_append
  | case6 source limit count s hlimit bytes rest hfill taken n hlength s' hwrite hless ih =>
    obtain ⟨part, hpart, htook, hall⟩ := took_writeAll copyStuck s taken
    rw [hwrite] at htook hall
    obtain rfl := hall rfl
    obtain ⟨more, hmore, htookmore, hcount⟩ := ih
    have hsplit : source.upTo limit
        = taken ++ (Source.behind (n + 1) bytes rest).upTo (limit.map (· - (n + 1))) := by
      rw [Source.upTo_eq_take_append hfill fun left => copyStep_le, hlength]
    refine ⟨taken ++ more, ?_, htook.trans htookmore, ?_⟩
    . rw [hsplit]
      exact (List.prefix_append_right_inj taken).2 hmore
    . intro m hm
      obtain ⟨rfl, rfl⟩ := hcount m hm
      refine ⟨hsplit.symm, ?_⟩
      rw [List.length_append, hlength]
      omega

theorem took_copy (s : Sink) (source : Source) (limit : Option Nat)
    : ∃ part, part <+: source.upTo limit ∧ Took s part (copy source limit s).2 ∧
        ∀ n, (copy source limit s).1 = .ok n → part = source.upTo limit ∧ n = part.length := by
  have := took_copy.go source limit 0 s
  simp only [Nat.zero_add] at this
  exact this

structure Policy.Reliable (policy : Policy) : Prop where
  write : ∀ size call offered, 0 < offered → ∃ n, policy.write size call offered = .ok (n + 1)
  flush : ∀ call, policy.flush call = .ok ()

theorem write_of_reliable {s : Sink} (h : s.policy.Reliable) {bytes : Bytes} (hbytes : bytes ≠ [])
    : ∃ n, (s.write bytes).1 = .ok (n + 1) := by
  obtain ⟨n, hn⟩ := h.write s.size s.writes bytes.length (List.length_pos_iff.2 hbytes)
  have hpos := List.length_pos_iff.2 hbytes
  refine ⟨(bytes.take (n + 1)).length - 1, ?_⟩
  unfold write
  simp only [Nat.add_sub_cancel, hn, List.length_take]
  congr 1
  omega

theorem writeAll_of_reliable {s : Sink} (h : s.policy.Reliable) (stuck : String) (bytes : Bytes)
    : (s.writeAll stuck bytes).1 = .ok () := by
  fun_induction writeAll with
  | case1 => rfl
  | case2 s b rest cause s' hwrite | case3 s b rest s' hwrite =>
    obtain ⟨n, hn⟩ := write_of_reliable h (List.cons_ne_nil b rest)
    simp [hwrite] at hn
  | case4 s b rest n s' hwrite ih =>
    apply ih
    rw [(took_of_write hwrite).policy]
    exact h

theorem flush_of_reliable {s : Sink} (h : s.policy.Reliable) : s.flush.1 = .ok () :=
  h.flush _

theorem finishCopy_of_reliable {s : Sink} (h : s.policy.Reliable) (count : Nat)
    : ∃ n, (s.finishCopy count).1 = .ok n := by
  have hflush := flush_of_reliable h
  unfold finishCopy
  split
  . next heq => simp [heq] at hflush
  . exact ⟨count, rfl⟩

theorem copy.go_of_reliable {source : Source} (hsource : source.Faultless) {s : Sink}
    (h : s.policy.Reliable) (limit : Option Nat) (count : Nat)
    : ∃ n, (copy.go source limit count s).1 = .ok n := by
  fun_induction copy.go with
  | case1 | case2 | case4 => exact finishCopy_of_reliable h _
  | case3 source limit count s hlimit cause rest hfill =>
    rcases hsource.fill_cases with hended | ⟨b, chunk, rest', hdata, -⟩
    . simp [hended] at hfill
    . simp [hdata] at hfill
  | case5 source limit count s hlimit bytes rest hfill taken n hlength cause s' hwrite =>
    have := writeAll_of_reliable h copyStuck taken
    simp [hwrite] at this
  | case6 source limit count s hlimit bytes rest hfill taken n hlength s' hwrite hless ih =>
    obtain ⟨part, -, htook, -⟩ := took_writeAll copyStuck s taken
    rw [hwrite] at htook
    rcases hsource.fill_cases with hended | ⟨b, chunk, rest', hdata, hrest⟩
    . simp [hended] at hfill
    . rw [hdata] at hfill
      cases hfill
      apply ih
      . exact hrest.data_cons _
      . rw [htook.policy]
        exact h

theorem copy_of_reliable {s : Sink} (h : s.policy.Reliable) {source : Source}
    (hsource : source.Faultless) (limit : Option Nat) : ∃ n, (copy source limit s).1 = .ok n := by
  exact copy.go_of_reliable hsource h limit 0

end JsonRpc.Sink
