import JsonRpc.Proofs.Transport.Operation
import JsonRpc.Text.Utf8
import Mathlib.Data.List.Induction

/-!
When the last byte that was read may be given back. Main statement: exactly if the last operation
that was not broken off is a read that gave bytes.
-/

namespace JsonRpc

namespace FrameReader

def Operation.IsSingle : Operation → Prop
  | .next | .unread => True
  | .read size => size ≠ 0
  | .readBody | .readToEnd => False

/--
A reader gives up in the middle of an operation: of a read because the stream fails, of the way to
the next frame because it does not get past the body.
-/
def BreaksOff (r : FrameReader) : Operation → Prop
  | .next => ∃ cause, r.discardBody.1 = .error cause
  | .read size => (∃ cause, (r.read size).1 = .error cause) ∧ r.source.fill ≠ .ended
  | _ => False

def GivesBytes (r : FrameReader) (op : Operation) : Prop :=
  ∃ size bytes, op = .read size ∧ (r.read size).1 = .ok bytes ∧ bytes ≠ []

variable {r : FrameReader} {op : Operation} {ops : List Operation}

theorem unreadByte_ok_iff : r.unreadByte.1 = .ok () ↔ r.lastRead.isSome := by
  unfold unreadByte
  cases r.lastRead <;> simp

theorem lastRead_of_discardBody_ok {ready : FrameReader} (h : r.discardBody = (.ok (), ready))
    : r.nextMessage.2.lastRead = none := by
  unfold nextMessage
  split
  . next heq =>
    rw [h] at heq
    cases heq
  . split
    . rfl
    . dsimp only
      split
      . rfl
      . split <;> rfl

theorem lastRead_of_breaksOff (h : r.BreaksOff op) : (r.perform op).2.lastRead = r.lastRead := by
  cases op with
  | next =>
    obtain ⟨cause, hcause⟩ := h
    have hdiscards := r.discards
    rcases hresult : r.discardBody with ⟨answer, r'⟩
    rw [hresult] at hcause hdiscards
    subst hcause
    change r.nextMessage.2.lastRead = r.lastRead
    rw [nextMessage_of_discardBody_error hresult]
    cases hdiscards <;> rfl
  | read size =>
    obtain ⟨⟨cause, hcause⟩, hunended⟩ := h
    change (r.read size).2.lastRead = r.lastRead
    have hreads := r.reads size
    generalize r.read size = result at hreads hcause
    cases hreads with
    | fault => rfl
    | cutShort asked free inside begun met => exact absurd met hunended
    | nothing | heldBack | atEnd | ended | taken => cases hcause
  | unread | readBody | readToEnd => cases h

theorem lastRead_of_not_breaksOff (hsingle : op.IsSingle) (h : ¬r.BreaksOff op)
    : (r.perform op).2.lastRead.isSome ↔ r.GivesBytes op := by
  cases op with
  | next =>
    rcases hresult : r.discardBody with ⟨answer, ready⟩
    cases answer with
    | error cause => exact absurd ⟨cause, by rw [hresult]⟩ h
    | ok _ =>
      change r.nextMessage.2.lastRead.isSome ↔ _
      rw [lastRead_of_discardBody_ok hresult]
      simp [GivesBytes]
  | read size =>
    change (r.read size).2.lastRead.isSome ↔ _
    have hreads := r.reads size
    have hgives : r.GivesBytes (.read size) ↔ ∃ bytes, (r.read size).1 = .ok bytes ∧ bytes ≠ [] := by
      simp [GivesBytes]
    rw [hgives]
    have hfails : ∀ cause, (r.read size).1 = .error cause → r.source.fill = .ended := by
      intro cause hcause
      by_contra hunended
      exact h ⟨⟨cause, hcause⟩, hunended⟩
    generalize r.read size = result at hreads hfails
    cases hreads with
    | nothing unasked => exact absurd unasked hsingle
    | heldBack => simp
    | fault asked free inside met =>
      have := hfails _ rfl
      rw [met] at this
      cases this
    | atEnd | cutShort | ended => simp
    | taken asked free inside met nonempty => simp [List.getLast?_eq_some_getLast nonempty, nonempty]
  | unread =>
    change r.unreadByte.2.lastRead.isSome ↔ _
    unfold unreadByte
    split
    . simp [GivesBytes]
    . next hnone => simp [GivesBytes, hnone]
  | readBody | readToEnd => cases hsingle

def AllBreakOff : FrameReader → List Operation → Prop
  | _, [] => True
  | r, op :: ops => r.BreaksOff op ∧ AllBreakOff (r.perform op).2 ops

theorem allBreakOff_append {more : List Operation}
    : AllBreakOff r (ops ++ more) ↔ AllBreakOff r ops ∧ AllBreakOff (r.performAll ops).2 more := by
  induction ops generalizing r with
  | nil => simp [AllBreakOff, performAll]
  | cons op ops ih => simp [AllBreakOff, performAll, ih, and_assoc]

def ReadLast (r : FrameReader) (ops : List Operation) : Prop :=
  ∃ before op after, ops = before ++ op :: after ∧ (r.performAll before).2.GivesBytes op ∧
    AllBreakOff (r.performAll (before ++ [op])).2 after

theorem GivesBytes.not_breaksOff (h : r.GivesBytes op) : ¬r.BreaksOff op := by
  obtain ⟨size, bytes, rfl, hread, -⟩ := h
  rintro ⟨⟨cause, hcause⟩, -⟩
  rw [hread] at hcause
  cases hcause

theorem readLast_snoc
    : r.ReadLast (ops ++ [op]) ↔ (r.performAll ops).2.GivesBytes op ∨
        ((r.performAll ops).2.BreaksOff op ∧ r.ReadLast ops) := by
  constructor
  . rintro ⟨before, given, after, hsplit, hgives, hbreak⟩
    rcases List.eq_nil_or_concat after with rfl | ⟨after, last, rfl⟩
    . obtain ⟨rfl, hop⟩ := List.append_inj' hsplit rfl
      cases hop
      exact .inl hgives
    . rw [List.concat_eq_append, ← List.cons_append, ← List.append_assoc] at hsplit
      obtain ⟨rfl, hop⟩ := List.append_inj' hsplit rfl
      cases hop
      rw [List.concat_eq_append, allBreakOff_append, ← performAll_append, List.append_assoc,
        List.singleton_append] at hbreak
      exact .inr ⟨hbreak.2.1, before, given, after, rfl, hgives, hbreak.1⟩
  . rintro (hgives | ⟨hbreaks, before, given, after, rfl, hgives, hbreak⟩)
    . exact ⟨ops, op, [], rfl, hgives, trivial⟩
    . refine ⟨before, given, after ++ [op], by simp, hgives, ?_⟩
      rw [allBreakOff_append, ← performAll_append, List.append_assoc, List.singleton_append]
      exact ⟨hbreak, hbreaks, trivial⟩

theorem lastRead_iff_readLast (hr : r.lastRead = none) (hops : ∀ op ∈ ops, op.IsSingle)
    : (r.performAll ops).2.lastRead.isSome ↔ r.ReadLast ops := by
  induction ops using List.reverseRecOn with
  | nil =>
    have hnot : ¬r.ReadLast [] := by
      rintro ⟨before, given, after, hsplit, -⟩
      simp at hsplit
    simp [performAll, hr, hnot]
  | append_singleton ops op ih =>
    rw [List.forall_mem_append, List.forall_mem_singleton] at hops
    have hpast := ih hops.1
    rw [performAll_append, readLast_snoc]
    change ((r.performAll ops).2.perform op).2.lastRead.isSome ↔ _
    by_cases hbreaks : (r.performAll ops).2.BreaksOff op
    . have hnot : ¬(r.performAll ops).2.GivesBytes op := fun h => h.not_breaksOff hbreaks
      rw [lastRead_of_breaksOff hbreaks, hpast]
      simp [hbreaks, hnot]
    . rw [lastRead_of_not_breaksOff hops.2 hbreaks]
      simp [hbreaks]

/--
A reader of any stream is asked for frames and for single reads, and to take back a byte, in any
order. The byte is taken back exactly if the last operation of those that were not broken off is a
read that gave bytes. Where it is not, the reader says so and stays as it was.
-/
theorem unreadByte_iff_readLast (source : Source) (max : Nat) {ops : List Operation}
    (hops : ∀ op ∈ ops, op.IsSingle)
    : ((performAll { source, maxMessageSize := max } ops).2.unreadByte.1 = .ok ()
          ↔ ReadLast { source, maxMessageSize := max } ops) ∧
        (¬ReadLast { source, maxMessageSize := max } ops →
          (performAll { source, maxMessageSize := max } ops).2.unreadByte
            = (.error .invalidUnread, (performAll { source, maxMessageSize := max } ops).2)) := by
  have hiff := lastRead_iff_readLast (r := { source, maxMessageSize := max }) rfl hops
  rw [unreadByte_ok_iff, hiff]
  refine ⟨Iff.rfl, ?_⟩
  intro hnot
  rw [← hiff, Option.not_isSome_iff_eq_none] at hnot
  unfold unreadByte
  rw [hnot]

def reset : IoFault := ⟨.other, "reset"⟩

def interrupted : Source :=
  [.data (Text.Utf8.encode "Content-Length: 3\x0d\x0a\x0d\x0aa"), .fault reset,
    .data (Text.Utf8.encode "bc")]

theorem unread_after_failure
    : ∃ r, r = (performAll { source := interrupted } [.next, .read 1]).2 ∧
        (r.read 1).1 = .error reset ∧ (r.read 1).2.unreadByte.1 = .ok () ∧
        r.nextMessage.1 = .error (.receiveFailed reset) ∧
        r.nextMessage.2.unreadByte.1 = .ok () := by
  have hdiscard : (performAll { source := interrupted } [.next, .read 1]).2.discardBody.1
      = .error (.receiveFailed reset) := by
    decide +kernel
  refine ⟨_, rfl, by decide +kernel, by decide +kernel, ?_, by decide +kernel⟩
  rw [nextMessage_of_discardBody_error (Prod.ext hdiscard rfl)]

theorem unreadByte_iff_readLast_of_interrupted
    : (performAll { source := interrupted }
        [.next, .read 2, .unread, .read 2, .read 2]).2.unreadByte.1 = .ok () := by
  have hops : ∀ op ∈ [Operation.next, .read 2, .unread, .read 2, .read 2], op.IsSingle := by
    simp [Operation.IsSingle]
  have hgives : (performAll { source := interrupted } [.next, .read 2, .unread]).2.GivesBytes
      (.read 2) :=
    ⟨2, Text.Utf8.encode "a", rfl, by decide +kernel, by decide⟩
  have hsource : (performAll { source := interrupted }
      [.next, .read 2, .unread, .read 2]).2.source = .data [] :: interrupted.tail := by
    decide +kernel
  have hbreaks : (performAll { source := interrupted }
      [.next, .read 2, .unread, .read 2]).2.BreaksOff (.read 2) := by
    refine ⟨⟨reset, by decide +kernel⟩, ?_⟩
    rw [hsource]
    simp [interrupted, Source.fill]
  obtain ⟨hiff, -⟩ := unreadByte_iff_readLast interrupted defaultMaxMessageSize hops
  exact hiff.2 ⟨[.next, .read 2, .unread], .read 2, [.read 2], rfl, hgives, hbreaks, trivial⟩

end FrameReader

end JsonRpc
