import JsonRpc.Proofs.Text.Numeral
import JsonRpc.Proofs.Transport.HeaderLine
import JsonRpc.Transport.FrameWriter

/-!
Reading a header block: its lines one after another, up to the blank one or to the end of the
stream.
-/

namespace JsonRpc

namespace FrameWriter

open Source (lineFeed)

def headerLine (key value : String) : Bytes :=
  Text.Utf8.encode (key ++ ": " ++ value ++ "\x0d")

theorem headerLine_append (key value : String)
    : headerLine key value ++ [lineFeed]
        =
      Text.Utf8.encode (key ++ ": " ++ value ++ lineEnd) := by
  have hfeed : Text.Utf8.encode "\x0a" = [lineFeed] := by decide
  have hend : lineEnd = "\x0d" ++ "\x0a" := by decide
  unfold headerLine
  rw [hend, ← String.append_assoc, Text.Utf8.encode_append _ "\x0a", hfeed]

theorem lineFeed_not_mem_headerLine {key value : String}
    (hkey : ∀ c ∈ key.toList, FrameReader.isLineEnd c = false)
    (hvalue : ∀ c ∈ value.toList, FrameReader.isLineEnd c = false)
    : lineFeed ∉ headerLine key value := by
  apply Text.Utf8.not_mem_encode (by decide)
  have hfeed : FrameReader.isLineEnd (Char.ofNat lineFeed.toNat) = true := by decide
  intro hmem
  simp only [String.toList_append, List.mem_append] at hmem
  rcases hmem with ((hmem | hmem) | hmem) | hmem
  . rw [hkey _ hmem] at hfeed
    cases hfeed
  . revert hmem
    decide
  . rw [hvalue _ hmem] at hfeed
    cases hfeed
  . revert hmem
    decide

end FrameWriter

namespace FrameReader

theorem HeaderLine.ofBytes_line {key value : String}
    (hkey : ∀ c ∈ key.toList, c ≠ ':' ∧ isLineEnd c = false)
    (hvalue : ∀ c ∈ value.toList, isLineEnd c = false)
    : ofBytes (Text.Utf8.encode (key ++ ": " ++ value ++ FrameWriter.lineEnd))
        =
      if Text.trimBlank key.toList = [] then
        .malformed (String.ofList (key.toList ++ ':' :: ' ' :: value.toList))
      else
        .header (String.ofList (Text.trimBlank key.toList))
          (String.ofList (Text.trimBlank value.toList)) := by
  have hshows : Shows (Text.Utf8.encode (key ++ ": " ++ value ++ FrameWriter.lineEnd))
      (key.toList ++ ':' :: ' ' :: value.toList) := by
    refine ⟨['\r', '\n'], ?_, by simp [isLineEnd], ?_⟩
    . congr 1
      rw [← String.toList_inj]
      simp [FrameWriter.lineEnd]
    . intro c hc
      have hmem := List.mem_of_getLast? hc
      simp only [List.mem_append, List.mem_cons] at hmem
      rcases hmem with hmem | rfl | rfl | hmem
      . exact (hkey c hmem).2
      . decide
      . decide
      . exact hvalue c hmem
  have hcolon : ':' ∉ key.toList := fun hmem => (hkey _ hmem).1 rfl
  rw [ofBytes_of_colon hshows hcolon, Text.trimBlank_cons (by decide)]

namespace readHeaders

open Source (lineFeed)

theorem go_eq (s : Source) (first : Bool) (headers : Headers)
    : go s first headers
        =
      match s.takeLine with
      | .fault cause rest => (.error (.receiveFailed cause), rest)
      | .unfinished line =>
        (.error (if line ≠ [] then .unexpectedEof "stream ended inside a header line"
          else if first = true then .connectionClosed "end of stream"
          else .unexpectedEof "stream ended inside a header block"), [])
      | .complete line rest =>
        match HeaderLine.ofBytes line with
        | .blank => (.ok headers, rest)
        | .malformed shown => (.error (.malformedHeader shown), rest)
        | .header key value => go rest false (headers.insert key value) := by
  rw [go]
  split
  . next htake => rw [htake]
  . next htake =>
    rw [htake]
    cases first <;> rfl
  . next htake =>
    rw [htake]
    rfl
  . next line rest htake =>
    dsimp only
    rewrite [htake]
    rfl

theorem go_complete {s : Source} (h : s.Faultless) {line rest : Bytes}
    (hline : lineFeed ∉ line) (hbytes : s.bytes = line ++ lineFeed :: rest) (first : Bool)
    (headers : Headers)
    : ∃ s' : Source, s'.Faultless ∧ s'.bytes = rest ∧
        go s first headers
          =
        match HeaderLine.ofBytes (line ++ [lineFeed]) with
        | .blank => (.ok headers, s')
        | .malformed shown => (.error (.malformedHeader shown), s')
        | .header key value => go s' false (headers.insert key value) := by
  obtain ⟨s', hs', hrest, htake⟩ := Source.takeLine_complete h hline hbytes
  refine ⟨s', hs', hrest, ?_⟩
  rw [go_eq, htake]

theorem go_header {s : Source} (h : s.Faultless) {line rest : Bytes} {key value : String}
    (hline : lineFeed ∉ line) (hbytes : s.bytes = line ++ lineFeed :: rest)
    (hheader : HeaderLine.ofBytes (line ++ [lineFeed]) = .header key value) (first : Bool)
    (headers : Headers)
    : ∃ s' : Source, s'.Faultless ∧ s'.bytes = rest ∧
        go s first headers = go s' false (headers.insert key value) := by
  have hgo := go_complete h hline hbytes first headers
  rw [hheader] at hgo
  exact hgo

theorem go_blank {s : Source} (h : s.Faultless) {line rest : Bytes}
    (hline : lineFeed ∉ line) (hbytes : s.bytes = line ++ lineFeed :: rest)
    (hblank : HeaderLine.ofBytes (line ++ [lineFeed]) = .blank) (first : Bool) (headers : Headers)
    : ∃ s' : Source, s'.Faultless ∧ s'.bytes = rest ∧ go s first headers = (.ok headers, s') := by
  have hgo := go_complete h hline hbytes first headers
  rw [hblank] at hgo
  exact hgo

theorem go_malformed {s : Source} (h : s.Faultless) {line rest : Bytes} {shown : String}
    (hline : lineFeed ∉ line) (hbytes : s.bytes = line ++ lineFeed :: rest)
    (hmalformed : HeaderLine.ofBytes (line ++ [lineFeed]) = .malformed shown) (first : Bool)
    (headers : Headers)
    : ∃ s' : Source, s'.bytes = rest ∧
        go s first headers = (.error (.malformedHeader shown), s') := by
  obtain ⟨s', -, hrest, hgo⟩ := go_complete h hline hbytes first headers
  rw [hmalformed] at hgo
  exact ⟨s', hrest, hgo⟩

theorem go_unfinished {s : Source} (h : s.Faultless) (hcut : lineFeed ∉ s.bytes) (first : Bool)
    (headers : Headers)
    : go s first headers
        =
      (.error (if s.bytes ≠ [] then .unexpectedEof "stream ended inside a header line"
        else if first = true then .connectionClosed "end of stream"
        else .unexpectedEof "stream ended inside a header block"), []) := by
  rw [go_eq, Source.takeLine_unfinished h hcut]

end readHeaders

end FrameReader

end JsonRpc
