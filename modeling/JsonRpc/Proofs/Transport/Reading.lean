import JsonRpc.Proofs.Transport.HeaderBlock
import JsonRpc.Proofs.Transport.Operation
import JsonRpc.Transport.Stream

/-!
Reading the bodies of frames from a stream without faults.
-/

namespace JsonRpc

namespace FrameReader

/-- What a reader has to give of a body: the byte that it holds back, and those of the stream. -/
def ahead (r : FrameReader) : Bytes :=
  r.pushback.toList ++ r.source.upTo r.remaining

def isShort (r : FrameReader) : Bool :=
  r.remaining.any (r.source.left < ·)

def ending (r : FrameReader) : Except IoFault Unit :=
  if r.isShort then .error ⟨.unexpectedEof, bodyCutShort⟩ else .ok ()

def behindBody (r : FrameReader) (rest : Source) : FrameReader :=
  { r with
    source := rest
    remaining := r.remaining.map (· - r.source.left)
    pushback := none
    lastRead := none }

structure Advances (r : FrameReader) (taken : Bytes) (r' : FrameReader) : Prop where
  faultless : r'.source.Faultless
  ahead : r.ahead = taken ++ r'.ahead
  isShort : r'.isShort = r.isShort
  behindBody : ∀ rest, r'.behindBody rest = r.behindBody rest
  bytes : ∀ rest : Source, r'.source.bytes = r'.source.upTo r'.remaining ++ rest.bytes →
    r.source.bytes = r.source.upTo r.remaining ++ rest.bytes

theorem advances_of_read {r r' : FrameReader} (h : r.source.Faultless) {size : Nat} {taken : Bytes}
    (hne : taken ≠ []) (hread : r.read size = (.ok taken, r')) : r.Advances taken r' := by
  have hreads := r.reads size
  rw [hread] at hreads
  cases hreads with
  | nothing | atEnd | ended => exact absurd rfl hne
  | heldBack asked held => exact ⟨h, by simp [ahead, held], rfl, fun rest => rfl, fun rest => id⟩
  | @taken _ more behind asked free inside met nonempty fits within =>
    have hsplit := Source.upTo_eq_take_append met within
    rw [List.take_left, Source.behind, List.drop_left] at hsplit
    have hbytes := Source.bytes_of_fill_data met
    have hleft : r.source.left = taken.length + Source.left (.data more :: behind) := by
      rw [Source.left_of_fill_data met, List.length_append, Source.left_data, Nat.add_assoc]
    refine ⟨(h.of_fill_data met).data_cons more, ?_, ?_, ?_, ?_⟩
    . simp only [ahead, free]
      rw [hsplit]
      rfl
    . unfold isShort
      dsimp only
      cases hremaining : r.remaining with
      | none => rfl
      | some left =>
        have hle := within left hremaining
        simp only [Option.map_some, Option.any_some, decide_eq_decide, hleft]
        omega
    . intro rest
      simp only [behindBody, hleft, Option.map_map, Function.comp_def, Nat.sub_sub]
    . intro rest hmore
      rw [hsplit, List.append_assoc, ← hmore, hbytes, List.append_assoc]
      rfl

theorem readToEnd.go_eq {r : FrameReader} (h : r.source.Faultless) (acc : Bytes)
    : ∃ rest : Source, rest.Faultless ∧
        r.source.bytes = r.source.upTo r.remaining ++ rest.bytes ∧
        go acc r = ((r.ending, acc ++ r.ahead), r.behindBody rest) := by
  fun_induction go acc r with
  | case1 acc r cause r' hread =>
    have hreads := r.reads bufferSize
    rw [hread] at hreads
    cases hreads with
    | fault asked free inside met => exact absurd met (h.fill_ne_fault _ _)
    | cutShort asked free inside begun met =>
      have hbytes := Source.bytes_of_fill_ended met
      have hupTo := Source.upTo_of_ended met r.remaining
      have hleft : r.source.left = 0 := by rw [Source.left, hbytes, List.length_nil]
      have hshort : r.isShort = true := by simp [isShort, inside, hleft, Nat.pos_of_ne_zero begun]
      refine ⟨[], by simp [Source.Faultless], ?_, ?_⟩
      . rw [hbytes, hupTo]
        rfl
      . simp [ending, hshort, ahead, behindBody, free, hupTo, hleft]
  | case2 acc r r' hread =>
    have hreads := r.reads bufferSize
    rw [hread] at hreads
    cases hreads with
    | nothing unasked => cases unasked
    | atEnd asked free spent =>
      refine ⟨r.source, h, by simp [spent, Source.upTo], ?_⟩
      simp [ending, isShort, ahead, behindBody, free, spent, Source.upTo]
    | ended asked free unbounded met =>
      have hbytes := Source.bytes_of_fill_ended met
      refine ⟨[], by simp [Source.Faultless], ?_, ?_⟩
      . rw [hbytes, unbounded, Source.upTo, hbytes]
        rfl
      . simp [ending, isShort, ahead, behindBody, free, unbounded, Source.upTo, hbytes]
    | taken asked free inside met nonempty => exact absurd rfl nonempty
  | case3 acc r b taken r' hread hless ih =>
    have hadvances := advances_of_read h (List.cons_ne_nil b taken) hread
    obtain ⟨rest, hrest, hbytes, hgo⟩ := ih hadvances.faultless
    refine ⟨rest, hrest, hadvances.bytes rest hbytes, ?_⟩
    rw [hgo, hadvances.behindBody, hadvances.ahead, List.append_assoc, ending, ending,
      hadvances.isShort]

theorem readToEnd_eq {r : FrameReader} (h : r.source.Faultless)
    : ∃ rest : Source, rest.Faultless ∧
        r.source.bytes = r.source.upTo r.remaining ++ rest.bytes ∧
        r.readToEnd = ((r.ending, r.ahead), r.behindBody rest) :=
  readToEnd.go_eq h []

theorem readBody_eq {r : FrameReader} (h : r.source.Faultless) {left : Nat}
    (hleft : r.remaining = some left)
    : ∃ rest : Source, rest.Faultless ∧
        r.source.bytes = r.source.upTo r.remaining ++ rest.bytes ∧
        r.readBody
          =
        (if r.isShort then .error (.unexpectedEof bodyCutShort) else .ok r.ahead,
          r.behindBody rest) := by
  obtain ⟨rest, hrest, hbytes, hread⟩ := readToEnd_eq h
  refine ⟨rest, hrest, hbytes, ?_⟩
  unfold readBody
  rw [hleft, if_neg (by simp), hread, ending]
  cases r.isShort <;> rfl

/-- A reader of a stream without faults: what is still to come, and how much of it is body. -/
structure Stands (max : Nat) (bytes : Bytes) (left : Nat) (r : FrameReader) : Prop where
  faultless : r.source.Faultless
  bytes : r.source.bytes = bytes
  remaining : r.remaining = some left
  pushback : r.pushback = none
  max : r.maxMessageSize = max

namespace Stands

variable {max left : Nat} {bytes : Bytes} {r : FrameReader}

theorem readBody_whole {body : Bytes} (h : Stands max (body ++ bytes) body.length r)
    : ∃ r', r.readBody = (.ok body, r') ∧ Stands max bytes 0 r' := by
  obtain ⟨rest, hrest, hbytes, hread⟩ := readBody_eq h.faultless h.remaining
  have hleft : r.source.left = body.length + bytes.length := by
    rw [Source.left, h.bytes, List.length_append]
  have hshort : r.isShort = false := by
    simp [isShort, h.remaining, hleft]
  have hahead : r.ahead = body := by
    simp [ahead, h.pushback, h.remaining, Source.upTo, h.bytes]
  rw [hshort, hahead] at hread
  refine ⟨_, hread, hrest, ?_, ?_, rfl, h.max⟩
  . rw [h.bytes, h.remaining, Source.upTo, h.bytes, List.take_left] at hbytes
    exact (List.append_cancel_left hbytes).symm
  . simp [behindBody, h.remaining, hleft]

end Stands
end FrameReader
end JsonRpc
