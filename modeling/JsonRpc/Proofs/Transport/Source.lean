import JsonRpc.Transport.Source
import Mathlib.Data.List.TakeWhile

/-!
What one read of a byte stream takes from the bytes of the stream.
-/

namespace JsonRpc.Source

def upTo (s : Source) : (limit : Option Nat) → Bytes
  | none => s.bytes
  | some n => s.bytes.take n

theorem bytes_behind (n : Nat) (bytes : Bytes) (rest : Source)
    : (behind n bytes rest).bytes = bytes.drop n ++ rest.bytes := by
  simp [behind, Source.bytes]

theorem bytes_of_fill_data {s : Source} {bytes : Bytes} {rest : Source}
    (h : s.fill = .data bytes rest) : s.bytes = bytes ++ rest.bytes := by
  induction s with
  | nil => cases h
  | cons segment s ih =>
    cases segment with
    | fault cause => cases h
    | data chunk =>
      cases chunk with
      | nil => exact ih h
      | cons b chunk =>
        cases h
        rfl

theorem bytes_of_fill_ended {s : Source} (h : s.fill = .ended) : s.bytes = [] := by
  induction s with
  | nil => rfl
  | cons segment s ih =>
    cases segment with
    | fault cause => cases h
    | data chunk =>
      cases chunk with
      | nil => exact ih h
      | cons b chunk => cases h

theorem ne_nil_of_fill_data {s : Source} {bytes : Bytes} {rest : Source}
    (h : s.fill = .data bytes rest) : bytes ≠ [] := by
  induction s with
  | nil => cases h
  | cons segment s ih =>
    cases segment with
    | fault cause => cases h
    | data chunk =>
      cases chunk with
      | nil => exact ih h
      | cons b chunk =>
        cases h
        simp

theorem bytes_of_fill_fault {s rest : Source} {cause : IoFault} (h : s.fill = .fault cause rest)
    : s.bytes = rest.bytes := by
  induction s with
  | nil => cases h
  | cons segment s ih =>
    cases segment with
    | fault cause' =>
      cases h
      rfl
    | data chunk =>
      cases chunk with
      | nil => exact ih h
      | cons b chunk => cases h

theorem upTo_of_ended {s : Source} (h : s.fill = .ended) (limit : Option Nat)
    : s.upTo limit = [] := by
  have hbytes := bytes_of_fill_ended h
  cases limit <;> simp [upTo, hbytes]

theorem drop_length_take (bytes : Bytes) (count : Nat)
    : bytes.drop (bytes.take count).length = bytes.drop count := by
  calc
    bytes.drop (bytes.take count).length
        = (bytes.take count ++ bytes.drop count).drop (bytes.take count).length := by
      rw [List.take_append_drop]
    _ = bytes.drop count := List.drop_left

theorem upTo_eq_take_append {s : Source} {bytes : Bytes} {rest : Source}
    (h : s.fill = .data bytes rest) {limit : Option Nat} {count : Nat}
    (hlimit : ∀ left, limit = some left → count ≤ left)
    : s.upTo limit
        =
      bytes.take count ++ (behind (bytes.take count).length bytes rest).upTo
        (limit.map (· - (bytes.take count).length)) := by
  have hbytes := bytes_of_fill_data h
  have hdrop := drop_length_take bytes count
  have hsplit : bytes ++ rest.bytes = bytes.take count ++ (bytes.drop count ++ rest.bytes) := by
    rw [← List.append_assoc, List.take_append_drop]
  cases limit with
  | none => simp only [upTo, Option.map_none, bytes_behind, hbytes, hdrop, ← hsplit]
  | some left =>
    have hcount := hlimit left rfl
    simp only [upTo, Option.map_some, bytes_behind, hbytes, hdrop]
    rw [hsplit, List.take_append, List.take_of_length_le]
    rw [List.length_take]
    omega

theorem takeLine.of_go_complete {s rest : Source} {acc line : Bytes} (hacc : lineFeed ∉ acc)
    (h : go acc s = .complete line rest)
    : ∃ before, line = before ++ [lineFeed] ∧ lineFeed ∉ before := by
  induction s generalizing acc with
  | nil => cases h
  | cons segment s ih =>
    cases segment with
    | fault cause => cases h
    | data chunk =>
      have hkept : lineFeed ∉ chunk.takeWhile (· ≠ lineFeed) := by
        intro hmem
        simpa using List.mem_takeWhile_imp hmem
      rw [go] at h
      split at h
      . next hdrop =>
        have hchunk := List.takeWhile_append_dropWhile (p := (· ≠ lineFeed)) (l := chunk)
        rw [hdrop, List.append_nil] at hchunk
        rw [hchunk] at hkept
        apply ih _ h
        rw [List.mem_append, not_or]
        exact ⟨hacc, hkept⟩
      . next b more hdrop =>
        have hstop := List.head?_dropWhile_not (· ≠ lineFeed) chunk
        rw [hdrop] at hstop
        obtain rfl : b = lineFeed := by simpa using hstop
        cases h
        refine ⟨acc ++ chunk.takeWhile (· ≠ lineFeed), rfl, ?_⟩
        rw [List.mem_append, not_or]
        exact ⟨hacc, hkept⟩

theorem of_takeLine_complete {s rest : Source} {line : Bytes}
    (h : s.takeLine = .complete line rest)
    : ∃ before, line = before ++ [lineFeed] ∧ lineFeed ∉ before :=
  takeLine.of_go_complete List.not_mem_nil h

def Faultless (s : Source) : Prop :=
  ∀ cause, .fault cause ∉ s

namespace Faultless

theorem tail {segment : Segment} {s : Source} (h : Faultless (segment :: s)) : Faultless s := by
  intro cause hmem
  exact h cause (List.mem_cons_of_mem _ hmem)

theorem data_cons {s : Source} (h : Faultless s) (bytes : Bytes)
    : Faultless (.data bytes :: s) := by
  intro cause hmem
  simp only [List.mem_cons, reduceCtorEq, false_or] at hmem
  exact h cause hmem

theorem ofChunks (chunks : List Bytes) : Faultless (chunks.map .data) := by
  intro cause hmem
  simp at hmem

end Faultless

theorem bytes_ofChunks (chunks : List Bytes) : bytes (chunks.map .data) = chunks.flatten := by
  simp [bytes, List.flatMap_map, List.flatMap_id']

theorem Faultless.fill_cases {s : Source} (h : s.Faultless)
    : s.fill = .ended ∨ ∃ b chunk rest, s.fill = .data (b :: chunk) rest ∧ Faultless rest := by
  induction s with
  | nil => exact .inl rfl
  | cons segment s ih =>
    cases segment with
    | fault cause => exact absurd List.mem_cons_self (h cause)
    | data chunk =>
      cases chunk with
      | nil => exact ih h.tail
      | cons b chunk => exact .inr ⟨b, chunk, s, rfl, h.tail⟩

theorem Faultless.of_fill_data {s : Source} (h : s.Faultless) {bytes : Bytes} {rest : Source}
    (hfill : s.fill = .data bytes rest) : rest.Faultless := by
  rcases h.fill_cases with hended | ⟨b, chunk, rest', hdata, hrest⟩
  . simp [hended] at hfill
  . rw [hdata] at hfill
    cases hfill
    exact hrest

theorem Faultless.fill_ne_fault {s : Source} (h : s.Faultless) (cause : IoFault) (rest : Source)
    : s.fill ≠ .fault cause rest := by
  rcases h.fill_cases with hended | ⟨b, chunk, rest', hdata, -⟩
  . simp [hended]
  . simp [hdata]

theorem kept_of_not_mem {α : Type} [DecidableEq α] {a : α} {xs : List α} (h : a ∉ xs)
    : ∀ x ∈ xs, decide (x ≠ a) = true := by
  intro x hx
  have : x ≠ a := by
    rintro rfl
    exact h hx
  simpa using this

theorem takeLine.go_eq {s : Source} (h : s.Faultless) (acc : Bytes)
    : match s.bytes.dropWhile (· ≠ lineFeed) with
      | [] => go acc s = .unfinished (acc ++ s.bytes)
      | b :: more => ∃ rest : Source, rest.Faultless ∧ rest.bytes = more ∧
          go acc s = .complete (acc ++ s.bytes.takeWhile (· ≠ lineFeed) ++ [b]) rest := by
  induction s generalizing acc with
  | nil => simp [bytes, go]
  | cons segment s ih =>
    cases segment with
    | fault cause => exact absurd List.mem_cons_self (h cause)
    | data chunk =>
      have hbytes : bytes (.data chunk :: s) = chunk ++ bytes s := by simp [bytes]
      rw [hbytes, go, List.dropWhile_append, List.takeWhile_append]
      cases hdrop : chunk.dropWhile (· ≠ lineFeed) with
      | nil =>
        -- The line goes on behind the chunk.
        have htake : chunk.takeWhile (· ≠ lineFeed) = chunk := by
          have := List.takeWhile_append_dropWhile (p := (· ≠ lineFeed)) (l := chunk)
          rw [hdrop, List.append_nil] at this
          exact this
        rw [htake, if_pos rfl]
        have := ih h.tail (acc ++ chunk)
        rw [List.append_assoc] at this
        simpa using this
      | cons b more =>
        have hlength : (chunk.takeWhile (· ≠ lineFeed)).length ≠ chunk.length := by
          have := congrArg List.length
            (List.takeWhile_append_dropWhile (p := (· ≠ lineFeed)) (l := chunk))
          rw [hdrop, List.length_append, List.length_cons] at this
          omega
        rw [if_neg hlength]
        exact ⟨_, h.tail.data_cons more, by simp [bytes], rfl⟩

theorem takeLine_complete {s : Source} (h : s.Faultless) {line rest : Bytes}
    (hline : lineFeed ∉ line) (hbytes : s.bytes = line ++ lineFeed :: rest)
    : ∃ s' : Source, s'.Faultless ∧ s'.bytes = rest ∧
        s.takeLine = .complete (line ++ [lineFeed]) s' := by
  have hkept := kept_of_not_mem hline
  have := takeLine.go_eq h []
  rw [hbytes, List.dropWhile_append_of_pos hkept, List.takeWhile_append_of_pos hkept] at this
  unfold takeLine
  simpa using this

theorem takeLine_unfinished {s : Source} (h : s.Faultless) (hline : lineFeed ∉ s.bytes)
    : s.takeLine = .unfinished s.bytes := by
  have hdrop := List.dropWhile_eq_nil_iff.2 (kept_of_not_mem hline)
  have := takeLine.go_eq h []
  rw [hdrop] at this
  exact this

theorem of_skip_done {n : Nat} {s rest : Source} (h : s.skip n = .done rest)
    : ∃ passed, s.bytes = passed ++ rest.bytes ∧ passed.length = n ∧
        (s.Faultless → rest.Faultless) := by
  fun_induction skip with
  | case1 s =>
    cases h
    exact ⟨[], rfl, rfl, id⟩
  | case2 | case3 => cases h
  | case4 n chunk s hle ih =>
    obtain ⟨passed, hpassed, hlength, hfaultless⟩ := ih h
    refine ⟨chunk ++ passed, ?_, ?_, fun hs => hfaultless hs.tail⟩
    . simp only [bytes, List.flatMap_cons, List.append_assoc] at hpassed ⊢
      rw [hpassed]
    . rw [List.length_append, hlength]
      omega
  | case5 n chunk s hlong =>
    cases h
    refine ⟨chunk.take (n + 1), ?_, ?_, fun hs => hs.tail.data_cons _⟩
    . rw [bytes_behind, ← List.append_assoc, List.take_append_drop]
      rfl
    . rw [List.length_take]
      omega

theorem of_skip_fault {n : Nat} {s rest : Source} {cause : IoFault}
    (h : s.skip n = .fault cause rest)
    : ∃ before : Source, s = before ++ .fault cause :: rest ∧ before.Faultless ∧
        before.left < n := by
  fun_induction skip with
  | case1 | case2 => cases h
  | case3 n cause s =>
    cases h
    exact ⟨[], rfl, by simp [Faultless], Nat.succ_pos n⟩
  | case4 n chunk s hle ih =>
    obtain ⟨before, rfl, hbefore, hleft⟩ := ih h
    refine ⟨.data chunk :: before, rfl, hbefore.data_cons chunk, ?_⟩
    rw [left_data]
    omega
  | case5 => cases h

theorem of_skip_ended {n missing : Nat} {s : Source} (h : s.skip n = .ended missing)
    : s.Faultless ∧ s.left + missing = n ∧ 0 < missing := by
  fun_induction skip with
  | case1 | case3 => cases h
  | case2 n =>
    cases h
    exact ⟨by simp [Faultless], by simp, Nat.succ_pos n⟩
  | case4 n chunk s hle ih =>
    obtain ⟨hs, hleft, hmissing⟩ := ih h
    refine ⟨hs.data_cons chunk, ?_, hmissing⟩
    rw [left_data]
    omega
  | case5 => cases h

theorem skip_of_le {before : Source} (hbefore : before.Faultless) {n : Nat}
    (hn : n ≤ before.left) (behind : Source) : ∃ rest, skip n (before ++ behind) = .done rest := by
  induction before generalizing n with
  | nil =>
    obtain rfl := Nat.le_zero.1 hn
    exact ⟨_, skip.eq_1 _⟩
  | cons segment before ih =>
    cases segment with
    | fault cause => exact absurd List.mem_cons_self (hbefore cause)
    | data chunk =>
      rw [left_data] at hn
      cases n with
      | zero => exact ⟨_, skip.eq_1 _⟩
      | succ n =>
        rw [List.cons_append, skip]
        split
        . apply ih hbefore.tail
          omega
        . exact ⟨_, rfl⟩

theorem Faultless.skip_cases {s : Source} (h : s.Faultless) (n : Nat)
    : (n ≤ s.left ∧ ∃ rest : Source, rest.Faultless ∧ rest.bytes = s.bytes.drop n ∧
        s.skip n = .done rest) ∨
        (s.left < n ∧ s.skip n = .ended (n - s.left)) := by
  cases hskip : s.skip n with
  | fault cause rest =>
    obtain ⟨before, rfl, -, -⟩ := of_skip_fault hskip
    exact absurd (by simp) (h cause)
  | done rest =>
    obtain ⟨passed, hpassed, rfl, hrest⟩ := of_skip_done hskip
    refine .inl ⟨?_, rest, hrest h, ?_, rfl⟩
    . rw [left, hpassed, List.length_append]
      exact Nat.le_add_right ..
    . rw [hpassed, List.drop_left]
  | ended missing =>
    obtain ⟨-, rfl, hmissing⟩ := of_skip_ended hskip
    rw [Nat.add_sub_cancel_left]
    exact .inr ⟨by omega, rfl⟩

end JsonRpc.Source
