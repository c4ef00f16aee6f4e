import JsonRpc.Proofs.Transport.Reading

namespace JsonRpc

open Source (lineFeed)

namespace Text

theorem digit_plain {n : Nat} {c : Char} (h : c ∈ digits 10 n)
    : isBlank c = false ∧ FrameReader.isLineEnd c = false := by
  have hall : ∀ d : Fin 10, isBlank (digitChar d) = false ∧
      FrameReader.isLineEnd (digitChar d) = false := by
    decide
  obtain ⟨d, hd, rfl⟩ := exists_of_mem_digits (by omega) (by omega) h
  exact hall ⟨d, hd⟩

theorem ofUnsigned?_digits {bound n : Nat} (h : n < bound)
    : ofUnsigned? bound (digits 10 n) = some n := by
  obtain ⟨d, rest, hd, hdigits⟩ :=
    exists_cons_digits (show 2 ≤ 10 by omega) (show 10 ≤ 16 by omega) n
  have hread : ofDigits? 10 (digits 10 n) = some n := ofDigits?_digits (by omega) (by omega) n
  unfold ofUnsigned?
  rw [hdigits] at *
  split
  . next heq => exact absurd (List.cons.inj heq).1 (digitChar_ne_sign hd).1
  . dsimp only
    rw [hread, Option.filter_some, if_pos (by simpa using h)]

end Text

namespace Headers

theorem contentLength?_setContentLength (h : Headers) {n : Nat} (hn : n < lengthBound)
    : (h.setContentLength n).contentLength? = some n := by
  unfold contentLength? setContentLength get? insert
  rw [Keyed.find?_insert_self, Option.bind_some, Text.decimal, String.toList_ofList,
    Text.trimBlank_of_none fun c hc => (Text.digit_plain hc).1, Text.ofUnsigned?_digits hn]

theorem canonicalKey_contentLengthKey : canonicalKey contentLengthKey = contentLengthKey := by
  decide

theorem entries_setContentLength (n : Nat)
    : (empty.setContentLength n).entries = [(contentLengthKey, Text.decimal n)] := by
  simp [empty, setContentLength, insert, Keyed.insert, canonicalKey_contentLengthKey]

end Headers

namespace Stream

def carriageReturn : UInt8 := 0x0D

theorem encode_lineEnd : Text.Utf8.encode FrameWriter.lineEnd = [carriageReturn, lineFeed] := by
  decide

theorem ofBytes_blankLine
    : FrameReader.HeaderLine.ofBytes ([carriageReturn] ++ [lineFeed]) = .blank := by
  have hshows : FrameReader.Shows ([carriageReturn] ++ [lineFeed]) [] :=
    ⟨['\r', '\n'], by decide, by simp [FrameReader.isLineEnd], by simp⟩
  rw [FrameReader.HeaderLine.ofBytes_of_colonless hshows List.not_mem_nil, if_pos rfl]

open FrameReader (Stands)

variable {max : Nat} {bytes part : Bytes} {r : FrameReader}

theorem discardBody_eq (h : Stands max bytes 0 r) : r.discardBody = (.ok (), r) := by
  have hr : { r with source := r.source, remaining := some 0 } = r := by
    rw [← h.remaining]
  unfold FrameReader.discardBody
  rw [h.remaining]
  simp [Source.skip, hr]

theorem nextMessage_of_readHeaders {headers : Headers} {rest : Source} {n : Nat}
    (h : Stands max bytes 0 r) (hread : FrameReader.readHeaders r.source = (.ok headers, rest))
    (hn : headers.contentLength? = some n) (hmax : n ≤ max)
    : r.nextMessage
        =
      (.ok ⟨headers, some n⟩, { r with
        source := rest
        pushback := none
        lastRead := none
        remaining := some n }) := by
  unfold FrameReader.nextMessage
  rw [discardBody_eq h]
  dsimp only
  rw [hread]
  dsimp only
  rw [hn]
  dsimp only
  rw [if_neg (by rw [h.max]; omega)]

theorem nextMessage_of_readHeaders_error {cause : TransportError} (h : Stands max bytes 0 r)
    (hread : (FrameReader.readHeaders r.source).1 = .error cause)
    : r.nextMessage.1 = .error cause := by
  rcases hresult : FrameReader.readHeaders r.source with ⟨answer, rest⟩
  rw [hresult] at hread
  cases hread
  unfold FrameReader.nextMessage
  rw [discardBody_eq h]
  dsimp only
  rw [hresult]

end Stream

end JsonRpc
