import JsonRpc.Proofs.Transport.HeadersRead

/-!
The grammar of a frame's head, and the reader as a parser of it: what the reader answers to a stream
and how much of the stream it takes, told from the bytes alone.
-/

namespace JsonRpc

open Source (lineFeed)

namespace FrameReader

def IsBlank (line : Bytes) : Prop :=
  ∀ b ∈ line, b = Stream.carriageReturn

theorem isBlank_iff {line : Bytes} (hline : lineFeed ∉ line)
    : IsBlank line ↔ Shows (line ++ [lineFeed]) [] := by
  have hreturn : Text.Utf8.encodeChar '\r' = [Stream.carriageReturn] := by decide
  have hfeed : Text.Utf8.encodeChar '\n' = [lineFeed] := by decide
  constructor
  . intro hblank
    refine ⟨line.map (fun _ => '\r') ++ ['\n'], ?_, ?_, by simp⟩
    . have hreturns : line.flatMap (fun _ => Text.Utf8.encodeChar '\r') = line := by
        calc
          line.flatMap (fun _ => Text.Utf8.encodeChar '\r')
              = line.flatMap (fun b => [b]) := by
            apply List.flatMap_congr
            intro b hb
            rw [hreturn, hblank b hb]
          _ = line := List.flatMap_singleton' line
      rw [Text.Utf8.encode, List.nil_append, String.toList_ofList, List.flatMap_append,
        List.flatMap_map, hreturns, List.flatMap_singleton, hfeed]
    . intro c hc
      rcases List.mem_append.1 hc with hc | hc
      . obtain ⟨-, -, rfl⟩ := List.mem_map.1 hc
        decide
      . obtain rfl := List.mem_singleton.1 hc
        decide
  . rintro ⟨ends, hbytes, hends, -⟩ b hb
    have hmem : b ∈ ends.flatMap Text.Utf8.encodeChar := by
      rw [Text.Utf8.encode, List.nil_append, String.toList_ofList] at hbytes
      rw [hbytes]
      exact List.mem_append_left _ hb
    obtain ⟨c, hc, hmem⟩ := List.mem_flatMap.1 hmem
    have hend : c = '\r' ∨ c = '\n' := by simpa [isLineEnd] using hends c hc
    rcases hend with rfl | rfl
    . rw [hreturn] at hmem
      exact List.mem_singleton.1 hmem
    . rw [hfeed] at hmem
      obtain rfl := List.mem_singleton.1 hmem
      exact absurd hb hline

theorem HeaderLine.ofBytes_of_isBlank {line : Bytes} (hline : lineFeed ∉ line) (h : IsBlank line)
    : ofBytes (line ++ [lineFeed]) = .blank := by
  rw [ofBytes_of_colonless ((isBlank_iff hline).1 h) List.not_mem_nil, if_pos rfl]

inductive HeaderLines : (entries : List (String × String)) → (block : Bytes) → Prop
  | nil : HeaderLines [] []
  | cons {line block : Bytes} {key value : String} {entries : List (String × String)}
      (whole : lineFeed ∉ line) (header : IsHeader (line ++ [lineFeed]) key value)
      (rest : HeaderLines entries block)
      : HeaderLines ((key, value) :: entries) (line ++ lineFeed :: block)

inductive Stops : (bytes : Bytes) → Prop
  | unfinished {part : Bytes} (unfinished : lineFeed ∉ part) : Stops part
  | blank {line rest : Bytes} (whole : lineFeed ∉ line) (blank : IsBlank line)
      : Stops (line ++ lineFeed :: rest)
  | malformed {line rest : Bytes} {shown : String} (whole : lineFeed ∉ line)
      (offends : Offends (line ++ [lineFeed]) shown) : Stops (line ++ lineFeed :: rest)

theorem exists_headerLines (bytes : Bytes)
    : ∃ entries block rest, HeaderLines entries block ∧ bytes = block ++ rest ∧ Stops rest := by
  induction hlength : bytes.length using Nat.strongRecOn generalizing bytes with
  | ind n ih =>
    by_cases hfeed : lineFeed ∈ bytes
    . obtain ⟨line, more, rfl, hline⟩ := List.eq_append_cons_of_mem hfeed
      rcases line_cases (line ++ [lineFeed]) with hblank | ⟨key, value, hheader⟩ | ⟨shown, hoffends⟩
      . exact ⟨[], [], _, .nil, rfl, .blank hline ((isBlank_iff hline).2 hblank)⟩
      . have hshorter : more.length < n := by
          rw [← hlength, List.length_append, List.length_cons]
          omega
        obtain ⟨entries, block, rest, hlines, rfl, hstops⟩ := ih more.length hshorter more rfl
        exact ⟨_, _, rest, .cons hline hheader hlines, by simp, hstops⟩
      . exact ⟨[], [], _, .nil, rfl, .malformed hline hoffends⟩
    . exact ⟨[], [], bytes, .nil, rfl, .unfinished hfeed⟩

end FrameReader

namespace Headers

def Last (entries : List (String × String)) (key value : String) : Prop :=
  ∃ before name after, entries = before ++ (name, value) :: after ∧ canonicalKey name = key ∧
    ∀ e ∈ after, canonicalKey e.1 ≠ key

def Gathers (h : Headers) (entries : List (String × String)) : Prop :=
  ∀ key value, (key, value) ∈ h.entries ↔ Last entries key value

def Declares (entries : List (String × String)) (n : Nat) : Prop :=
  n < lengthBound ∧ ∃ value, Last entries contentLengthKey value ∧ Text.Spells value.toList n

def gather (entries : List (String × String)) : Headers :=
  entries.foldl (fun acc e => acc.insert e.1 e.2) .empty

theorem find?_gather {entries : List (String × String)} {key value : String}
    : Keyed.find? key (gather entries).entries = some value ↔ Last entries key value := by
  rw [gather, entries_foldl_insert, Keyed.find?_foldl_insert, ← List.map_reverse,
    Keyed.find?_eq_map, List.find?_map]
  simp only [empty, Keyed.find?, Option.or_none, Option.map_map, Option.map_eq_some_iff,
    List.find?_eq_some_iff_append, Function.comp_def]
  constructor
  . rintro ⟨⟨name, value⟩, ⟨hkey, after, before, hsplit, hafter⟩, rfl⟩
    refine ⟨before.reverse, name, after.reverse, ?_, by simpa using hkey, by simpa using hafter⟩
    rw [← List.reverse_inj, hsplit]
    simp
  . rintro ⟨before, name, after, rfl, hkey, hafter⟩
    refine ⟨(name, value), ⟨by simpa using hkey, after.reverse, before.reverse, by simp, ?_⟩, rfl⟩
    simpa using hafter

theorem gathers_gather (entries : List (String × String)) : (gather entries).Gathers entries := by
  intro key value
  rw [← Keyed.find?_eq_some_iff (gather entries).ascending, find?_gather]

theorem Gathers.eq_gather {h : Headers} {entries : List (String × String)}
    (hh : h.Gathers entries) : h = gather entries := by
  apply eq_of_entries
  apply Keyed.eq_of_find? h.ascending (gather entries).ascending
  intro key
  apply Option.ext
  intro value
  rw [Keyed.find?_eq_some_iff h.ascending, hh key value, find?_gather]

theorem contentLength?_gather {entries : List (String × String)}
    (htrimmed : ∀ e ∈ entries, trimmed e.2 = e.2) {n : Nat}
    : (gather entries).contentLength? = some n ↔ Declares entries n := by
  have hdeclared (value : String) (hlast : Last entries contentLengthKey value)
      : declared? value = some n ↔ n < lengthBound ∧ Text.Spells value.toList n := by
    obtain ⟨before, name, after, rfl, -, -⟩ := hlast
    have hvalue := htrimmed (name, value) (by simp)
    rw [declared?, trimmed_eq_self_iff.1 hvalue, Text.ofUnsigned?_eq_some_iff]
  rw [contentLength?_eq, Option.bind_eq_some_iff, Declares]
  simp only [find?_gather]
  constructor
  . rintro ⟨value, hlast, hvalue⟩
    obtain ⟨hbound, hspells⟩ := (hdeclared value hlast).1 hvalue
    exact ⟨hbound, value, hlast, hspells⟩
  . rintro ⟨hbound, value, hlast, hspells⟩
    exact ⟨value, hlast, (hdeclared value hlast).2 ⟨hbound, hspells⟩⟩

end Headers

namespace FrameReader

open Headers (Declares gather)

theorem HeaderLines.trimmed {entries : List (String × String)} {block : Bytes}
    (h : HeaderLines entries block) : ∀ e ∈ entries, Headers.trimmed e.2 = e.2 := by
  induction h with
  | nil => simp
  | cons whole header rest ih =>
    obtain ⟨before, after, -, -, -, hvalue, -⟩ := header
    rw [List.forall_mem_cons]
    exact ⟨Headers.trimmed_of_trims hvalue, ih⟩

theorem HeaderLines.contentLength?_gather {entries : List (String × String)} {block : Bytes}
    (h : HeaderLines entries block) (n : Nat)
    : (gather entries).contentLength? = some n ↔ Declares entries n :=
  Headers.contentLength?_gather h.trimmed

theorem readHeaders.go_lines {entries : List (String × String)} {block rest : Bytes}
    (hlines : HeaderLines entries block) {s : Source} (h : s.Faultless)
    (hbytes : s.bytes = block ++ rest) (first : Bool) (acc : Headers)
    : ∃ s' : Source, s'.Faultless ∧ s'.bytes = rest ∧
        go s first acc
          =
        go s' (first && entries.isEmpty) (entries.foldl (fun acc e => acc.insert e.1 e.2) acc) := by
  induction hlines generalizing s first acc with
  | nil => exact ⟨s, h, hbytes, by simp⟩
  | cons whole header hlines ih =>
    rw [List.append_assoc, List.cons_append] at hbytes
    obtain ⟨second, hsecond, hsecondBytes, hgo⟩ :=
      go_header h whole hbytes (HeaderLine.ofBytes_of_isHeader header) first acc
    obtain ⟨s', hs', hrest, hgo'⟩ := ih hsecond hsecondBytes false (acc.insert _ _)
    refine ⟨s', hs', hrest, ?_⟩
    rw [hgo, hgo']
    simp

def Gives (r : FrameReader) (answer : Except TransportError FrameHeader) (rest : Bytes) : Prop :=
  r.nextMessage.1 = answer ∧ r.nextMessage.2.source.bytes = rest

/--
What there is to say of the bytes of a stream, with bodies of up to `max` bytes, and which of them
are left. Header lines come first. Behind them is a blank line, an offending one, or the end.
-/
inductive Reading (max : Nat)
    : (bytes : Bytes) → (answer : Except TransportError FrameHeader) → (rest : Bytes) → Prop
  | accepted {entries : List (String × String)} {block line rest : Bytes} {header : FrameHeader}
      (lines : HeaderLines entries block) (blank : IsBlank line)
      (headers : header.headers.Gathers entries)
      (length : ∀ n, header.contentLength = some n ↔ Declares entries n)
      (fits : ∀ n, Declares entries n → n ≤ max)
      : Reading max (block ++ (line ++ lineFeed :: rest)) (.ok header) rest
  | tooLarge {entries : List (String × String)} {block line rest : Bytes} {n : Nat}
      (lines : HeaderLines entries block) (blank : IsBlank line) (length : Declares entries n)
      (large : max < n)
      : Reading max (block ++ (line ++ lineFeed :: rest)) (.error (.messageTooLarge n max)) rest
  | malformed {entries : List (String × String)} {block line rest : Bytes} {shown : String}
      (lines : HeaderLines entries block) (whole : lineFeed ∉ line)
      (offends : Offends (line ++ [lineFeed]) shown)
      : Reading max (block ++ (line ++ lineFeed :: rest)) (.error (.malformedHeader shown)) rest
  | closed : Reading max [] (.error (.connectionClosed "end of stream")) []
  | cutBetween {entries : List (String × String)} {block : Bytes}
      (lines : HeaderLines entries block) (begun : entries ≠ [])
      : Reading max block (.error (.unexpectedEof "stream ended inside a header block")) []
  | cutInside {entries : List (String × String)} {block part : Bytes}
      (lines : HeaderLines entries block) (begun : part ≠ []) (unfinished : lineFeed ∉ part)
      : Reading max (block ++ part) (.error (.unexpectedEof "stream ended inside a header line")) []

theorem lineFeed_not_mem_of_isBlank {line : Bytes} (h : IsBlank line) : lineFeed ∉ line := by
  intro hmem
  cases h lineFeed hmem

theorem exists_reading (max : Nat) (bytes : Bytes)
    : ∃ answer rest, Reading max bytes answer rest := by
  obtain ⟨entries, block, rest, hlines, rfl, hstops⟩ := exists_headerLines bytes
  cases hstops with
  | unfinished unfinished =>
    by_cases hrest : rest = []
    . subst hrest
      rw [List.append_nil]
      cases hlines with
      | nil => exact ⟨_, _, .closed⟩
      | cons whole header hlines => exact ⟨_, _, .cutBetween (.cons whole header hlines) (by simp)⟩
    . exact ⟨_, _, .cutInside hlines hrest unfinished⟩
  | malformed whole offends => exact ⟨_, _, .malformed hlines whole offends⟩
  | blank whole blank =>
    by_cases hlarge : ∃ n, Declares entries n ∧ max < n
    . obtain ⟨n, hn, hlarge⟩ := hlarge
      exact ⟨_, _, .tooLarge hlines blank hn hlarge⟩
    . have hfits : ∀ n, Declares entries n → n ≤ max := by
        intro n hn
        by_contra hnot
        exact hlarge ⟨n, hn, by omega⟩
      exact ⟨.ok ⟨gather entries, (gather entries).contentLength?⟩, _,
        .accepted hlines blank (Headers.gathers_gather entries) hlines.contentLength?_gather hfits⟩

section

variable {max : Nat} {bytes : Bytes} {r : FrameReader}

theorem gives_of_readHeaders_error {cause : TransportError} {rest : Source}
    (h : Stands max bytes 0 r) (hread : readHeaders r.source = (.error cause, rest))
    : r.Gives (.error cause) rest.bytes := by
  unfold Gives nextMessage
  rw [Stream.discardBody_eq h]
  dsimp only
  rw [hread]
  exact ⟨rfl, rfl⟩

theorem gives_of_fits {headers : Headers} {rest : Source} (h : Stands max bytes 0 r)
    (hread : readHeaders r.source = (.ok headers, rest))
    (hfits : ∀ n, headers.contentLength? = some n → n ≤ max)
    : r.Gives (.ok ⟨headers, headers.contentLength?⟩) rest.bytes := by
  unfold Gives nextMessage
  rw [Stream.discardBody_eq h]
  dsimp only
  rw [hread]
  dsimp only
  split
  . next hnone =>
    rw [hnone]
    exact ⟨rfl, rfl⟩
  . next n hsome =>
    have hle := hfits n hsome
    rw [hsome, if_neg (by rw [h.max]; omega)]
    exact ⟨rfl, rfl⟩

theorem gives_of_large {headers : Headers} {rest : Source} (h : Stands max bytes 0 r)
    (hread : readHeaders r.source = (.ok headers, rest)) {n : Nat}
    (hn : headers.contentLength? = some n) (hlarge : max < n)
    : r.Gives (.error (.messageTooLarge n max)) rest.bytes := by
  unfold Gives nextMessage
  rw [Stream.discardBody_eq h]
  dsimp only
  rw [hread]
  dsimp only
  rw [hn]
  dsimp only
  rw [if_pos (by rw [h.max]; exact hlarge), h.max]
  exact ⟨rfl, rfl⟩

theorem readHeaders_of_isBlank {entries : List (String × String)} {block line rest : Bytes}
    (h : Stands max (block ++ (line ++ lineFeed :: rest)) 0 r) (hlines : HeaderLines entries block)
    (hblank : IsBlank line)
    : ∃ s' : Source, s'.bytes = rest ∧ readHeaders r.source = (.ok (gather entries), s') := by
  have hwhole := lineFeed_not_mem_of_isBlank hblank
  obtain ⟨s, hs, hbytes, hgo⟩ := readHeaders.go_lines hlines h.faultless h.bytes true .empty
  obtain ⟨s', -, hrest, hend⟩ := readHeaders.go_blank hs hwhole hbytes
    (HeaderLine.ofBytes_of_isBlank hwhole hblank) (true && entries.isEmpty) (gather entries)
  exact ⟨s', hrest, hgo.trans hend⟩

theorem gives_of_unfinished {entries : List (String × String)} {block part : Bytes}
    (hlines : HeaderLines entries block) (h : Stands max (block ++ part) 0 r)
    (hpart : lineFeed ∉ part)
    : r.Gives
        (.error (if part ≠ [] then .unexpectedEof "stream ended inside a header line"
          else if entries = [] then .connectionClosed "end of stream"
          else .unexpectedEof "stream ended inside a header block")) [] := by
  obtain ⟨s, hs, rfl, hgo⟩ := readHeaders.go_lines hlines h.faultless h.bytes true .empty
  have hend := readHeaders.go_unfinished hs hpart (true && entries.isEmpty) (gather entries)
  simp only [Bool.true_and, List.isEmpty_iff] at hend
  exact gives_of_readHeaders_error h (hgo.trans hend)

theorem gives_of_reading {answer : Except TransportError FrameHeader} {rest : Bytes}
    (h : Stands max bytes 0 r) (hreading : Reading max bytes answer rest)
    : r.Gives answer rest := by
  cases hreading with
  | @accepted entries block line rest header lines blank headers length fits =>
    obtain ⟨s', rfl, hread⟩ := readHeaders_of_isBlank h lines blank
    have hheader : header = ⟨gather entries, (gather entries).contentLength?⟩ := by
      obtain ⟨made, declared⟩ := header
      obtain rfl := headers.eq_gather
      congr 1
      apply Option.ext
      intro n
      rw [length, lines.contentLength?_gather]
    rw [hheader]
    apply gives_of_fits h hread
    intro n hn
    exact fits n ((lines.contentLength?_gather n).1 hn)
  | @tooLarge entries block line rest n lines blank length large =>
    obtain ⟨s', rfl, hread⟩ := readHeaders_of_isBlank h lines blank
    exact gives_of_large h hread ((lines.contentLength?_gather n).2 length) large
  | malformed lines whole offends =>
    obtain ⟨s, hs, hbytes, hgo⟩ := readHeaders.go_lines lines h.faultless h.bytes true .empty
    obtain ⟨s', rfl, hend⟩ := readHeaders.go_malformed hs whole hbytes
      (HeaderLine.ofBytes_of_offends offends) (true && _) (gather _)
    exact gives_of_readHeaders_error h (hgo.trans hend)
  | closed => exact gives_of_unfinished .nil h List.not_mem_nil
  | cutBetween lines begun =>
    rw [← List.append_nil bytes] at h
    have hgives := gives_of_unfinished lines h List.not_mem_nil
    simpa [begun] using hgives
  | cutInside lines begun unfinished =>
    have hgives := gives_of_unfinished lines h unfinished
    simpa [begun] using hgives

end

/--
A fresh reader is a parser of this grammar: however the stream is cut into chunks, it gives the one
answer that there is to the bytes, and has then taken what the grammar takes and no byte more.
-/
theorem gives_iff_reading (max : Nat) (chunks : List Bytes)
    (answer : Except TransportError FrameHeader) (rest : Bytes)
    : Gives { source := chunks.map .data, maxMessageSize := max } answer rest
        ↔
      Reading max chunks.flatten answer rest := by
  have hstands : Stands max chunks.flatten 0
      { source := chunks.map .data, maxMessageSize := max } :=
    ⟨.ofChunks chunks, Source.bytes_ofChunks chunks, rfl, rfl, rfl⟩
  constructor
  . rintro ⟨rfl, rfl⟩
    -- The grammar has some answer to the bytes, and that is the one that the reader gives.
    obtain ⟨answer, rest, hreading⟩ := exists_reading max chunks.flatten
    obtain ⟨hanswer, hrest⟩ := gives_of_reading hstands hreading
    rw [hanswer, hrest]
    exact hreading
  . exact gives_of_reading hstands

end FrameReader

end JsonRpc
