import JsonRpc.Proofs.Keyed
import JsonRpc.Proofs.Transport.RoundTrip

/-!
Header blocks of any kind, written and read back. The writer goes by the keys as they are; a reader
takes the blanks at their ends away first, and of two headers under one key it keeps the last.
-/

namespace JsonRpc

theorem find?_congr {α : Type} {p q : α → Bool} {xs : List α} (h : ∀ x ∈ xs, p x = q x)
    : xs.find? p = xs.find? q := by
  rw [← List.head?_filter, ← List.head?_filter, List.filter_congr h]

namespace Headers

def trimmed (text : String) : String :=
  String.ofList (Text.trimBlank text.toList)

def keyRead (key : String) : String :=
  canonicalKey (trimmed key)

def declared? (value : String) : Option Nat :=
  Text.ofUnsigned? lengthBound (Text.trimBlank value.toList)

/-- The length that a reader goes by: that of the last header whose key it takes for the length's. -/
def lengthRead? (h : Headers) : Option Nat :=
  (h.entries.reverse.find? fun e => keyRead e.1 = contentLengthKey).bind fun e => declared? e.2

structure InStep (h : Headers) : Prop where
  named : ∀ e ∈ h.entries, Text.trimBlank e.1.toList ≠ []
  length : h.lengthRead? = h.contentLength?

def takeIn (acc : Headers) (e : String × String) : Headers :=
  acc.insert (trimmed e.1) (trimmed e.2)

def received (h : Headers) : Headers :=
  h.entries.foldl takeIn .empty

theorem declared?_trimmed (value : String) : declared? (trimmed value) = declared? value := by
  unfold declared? trimmed
  rw [String.toList_ofList, Text.trimBlank_trimBlank]

theorem entries_foldl_insert (entries : List (String × String)) (acc : Headers)
    : (entries.foldl (fun acc e => acc.insert e.1 e.2) acc).entries
        =
      (entries.map fun e => (canonicalKey e.1, e.2)).foldl
        (fun acc e => Keyed.insert e.1 e.2 acc) acc.entries := by
  induction entries generalizing acc with
  | nil => rfl
  | cons e entries ih => exact ih _

theorem entries_foldl_takeIn (entries : List (String × String)) (acc : Headers)
    : (entries.foldl takeIn acc).entries
        =
      (entries.map fun e => (keyRead e.1, trimmed e.2)).foldl
        (fun acc e => Keyed.insert e.1 e.2 acc) acc.entries := by
  have hinsert : entries.foldl takeIn acc
      = (entries.map fun e => (trimmed e.1, trimmed e.2)).foldl
          (fun acc e => acc.insert e.1 e.2) acc := by
    rw [List.foldl_map]
    rfl
  rw [hinsert, entries_foldl_insert, List.map_map]
  rfl

theorem contentLength?_eq (h : Headers)
    : h.contentLength? = (Keyed.find? contentLengthKey h.entries).bind declared? := by
  unfold contentLength? get?
  rw [canonicalKey_contentLengthKey]
  rfl

theorem contentLength?_received (h : Headers) : h.received.contentLength? = h.lengthRead? := by
  rw [contentLength?_eq]
  unfold received lengthRead?
  rw [entries_foldl_takeIn, Keyed.find?_foldl_insert, ← List.map_reverse, Keyed.find?_eq_map,
    List.find?_map]
  simp only [empty, Keyed.find?, Option.or_none, Option.map_map, Option.bind_map, Function.comp_def,
    declared?_trimmed]

theorem inStep_of_keyRead {h : Headers} (hnamed : ∀ e ∈ h.entries, e.1 ≠ "")
    (hkeys : ∀ e ∈ h.entries, keyRead e.1 = e.1) : h.InStep := by
  constructor
  . intro e he hblank
    apply hnamed e he
    rw [← hkeys e he, keyRead, trimmed, hblank]
    decide
  . have hlast : (h.entries.reverse.find? fun e => keyRead e.1 = contentLengthKey)
        = h.entries.reverse.find? fun e => e.1 = contentLengthKey := by
      apply find?_congr
      intro e he
      rw [hkeys e (List.mem_reverse.1 he)]
    have honly : Keyed.find? contentLengthKey h.entries.reverse
        = Keyed.find? contentLengthKey h.entries := by
      rw [← Keyed.find?_ofList, Keyed.ofList_of_ascending h.ascending]
    rw [contentLength?_eq, ← honly, Keyed.find?_eq_map, lengthRead?, hlast, Option.bind_map]
    rfl

end Headers

namespace FrameWriter

open Source (lineFeed)

theorem forall_isWritable {headers : Headers} (h : invalidKey? headers = none)
    : ∀ e ∈ headers.entries, isWritable e.1 e.2 := by
  unfold invalidKey? at h
  simpa using h

theorem of_isWritable {key value : String} (h : isWritable key value)
    : key ≠ "" ∧ (∀ c ∈ key.toList, c ≠ ':' ∧ FrameReader.isLineEnd c = false) ∧
        ∀ c ∈ value.toList, FrameReader.isLineEnd c = false := by
  unfold isWritable at h
  simp only [Bool.and_eq_true, Bool.not_eq_true', List.any_eq_false, Bool.or_eq_true, not_or,
    Bool.not_eq_true, decide_eq_true_eq] at h
  obtain ⟨⟨hkey, hletters⟩, hvalue⟩ := h
  refine ⟨?_, hletters, hvalue⟩
  rintro rfl
  cases hkey

theorem ofBytes_headerLine {key value : String} (h : isWritable key value)
    : FrameReader.HeaderLine.ofBytes (headerLine key value ++ [lineFeed])
        =
      if Text.trimBlank key.toList = [] then
        .malformed (String.ofList (key.toList ++ ':' :: ' ' :: value.toList))
      else
        .header (Headers.trimmed key) (Headers.trimmed value) := by
  obtain ⟨-, hkey, hvalue⟩ := of_isWritable h
  rw [headerLine_append, FrameReader.HeaderLine.ofBytes_line hkey hvalue]
  rfl

theorem lineFeed_not_mem_of_isWritable {key value : String} (h : isWritable key value)
    : lineFeed ∉ headerLine key value := by
  obtain ⟨-, hkey, hvalue⟩ := of_isWritable h
  exact lineFeed_not_mem_headerLine (fun c hc => (hkey c hc).2) hvalue

theorem head_eq_flatMap (headers : Headers)
    : head headers
        =
      headers.entries.flatMap (fun e => headerLine e.1 e.2 ++ [lineFeed]) ++
        [Stream.carriageReturn, lineFeed] := by
  unfold head
  simp only [headerLine_append, Stream.encode_lineEnd]

end FrameWriter

namespace FrameReader.readHeaders

open FrameWriter (isWritable headerLine)
open Source (lineFeed)

variable {entries : List (String × String)} {s : Source} {rest : Bytes}

theorem go_entries (h : s.Faultless) (hwritable : ∀ e ∈ entries, isWritable e.1 e.2)
    (hnamed : ∀ e ∈ entries, Text.trimBlank e.1.toList ≠ [])
    (hbytes : s.bytes = entries.flatMap (fun e => headerLine e.1 e.2 ++ [lineFeed]) ++
      Stream.carriageReturn :: lineFeed :: rest) (first : Bool) (acc : Headers)
    : ∃ s' : Source, s'.Faultless ∧ s'.bytes = rest ∧
        go s first acc = (.ok (entries.foldl Headers.takeIn acc), s') := by
  induction entries generalizing s first acc with
  | nil => exact go_blank h (by decide) hbytes Stream.ofBytes_blankLine first acc
  | cons e entries ih =>
    obtain ⟨hfirst, hrest⟩ := List.forall_mem_cons.1 hwritable
    obtain ⟨hkey, hkeys⟩ := List.forall_mem_cons.1 hnamed
    rw [List.flatMap_cons, List.append_assoc, List.append_assoc] at hbytes
    have hline := FrameWriter.ofBytes_headerLine hfirst
    rw [if_neg hkey] at hline
    obtain ⟨s', hs', hbytes', hgo⟩ := go_header h
      (FrameWriter.lineFeed_not_mem_of_isWritable hfirst) hbytes hline first acc
    rw [hgo]
    exact ih hs' hrest hkeys hbytes' false _

theorem go_entries_of_unnamed (h : s.Faultless) (hwritable : ∀ e ∈ entries, isWritable e.1 e.2)
    (hunnamed : ∃ e ∈ entries, Text.trimBlank e.1.toList = [])
    (hbytes : s.bytes = entries.flatMap (fun e => headerLine e.1 e.2 ++ [lineFeed]) ++ rest)
    (first : Bool) (acc : Headers)
    : ∃ shown, (go s first acc).1 = .error (.malformedHeader shown) := by
  induction entries generalizing s first acc with
  | nil =>
    obtain ⟨e, he, -⟩ := hunnamed
    cases he
  | cons e entries ih =>
    obtain ⟨hfirst, hrest⟩ := List.forall_mem_cons.1 hwritable
    rw [List.flatMap_cons, List.append_assoc, List.append_assoc] at hbytes
    have hfeed := FrameWriter.lineFeed_not_mem_of_isWritable hfirst
    have hline := FrameWriter.ofBytes_headerLine hfirst
    by_cases hkey : Text.trimBlank e.1.toList = []
    . rw [if_pos hkey] at hline
      obtain ⟨s', -, hgo⟩ := go_malformed h hfeed hbytes hline first acc
      exact ⟨_, by rw [hgo]⟩
    . rw [if_neg hkey] at hline
      obtain ⟨s', hs', hbytes', hgo⟩ := go_header h hfeed hbytes hline first acc
      rw [hgo]
      refine ih hs' hrest ?_ hbytes' false _
      simpa [hkey] using hunnamed

end FrameReader.readHeaders

namespace FrameReader

open JsonRpc.Stream (discardBody_eq nextMessage_of_readHeaders nextMessage_of_readHeaders_error)

variable {max : Nat} {bytes : Bytes} {r : FrameReader} {headers : Headers}

theorem Stands.readHeaders_head (h : Stands max (FrameWriter.head headers ++ bytes) 0 r)
    (hvalid : FrameWriter.invalidKey? headers = none)
    (hnamed : ∀ e ∈ headers.entries, Text.trimBlank e.1.toList ≠ [])
    : ∃ rest : Source, rest.Faultless ∧ rest.bytes = bytes ∧
        readHeaders r.source = (.ok headers.received, rest) := by
  have hbytes := h.bytes
  rw [FrameWriter.head_eq_flatMap, List.append_assoc] at hbytes
  exact readHeaders.go_entries h.faultless (FrameWriter.forall_isWritable hvalid) hnamed hbytes
    true .empty

theorem Stands.readHeaders_unnamed (h : Stands max (FrameWriter.head headers ++ bytes) 0 r)
    (hvalid : FrameWriter.invalidKey? headers = none)
    (hunnamed : ∃ e ∈ headers.entries, Text.trimBlank e.1.toList = [])
    : ∃ shown, (readHeaders r.source).1 = .error (.malformedHeader shown) := by
  have hbytes := h.bytes
  rw [FrameWriter.head_eq_flatMap, List.append_assoc] at hbytes
  exact readHeaders.go_entries_of_unnamed h.faultless (FrameWriter.forall_isWritable hvalid)
    hunnamed hbytes true .empty

theorem contentLength_of_nextMessage {rest : Source} (h : Stands max bytes 0 r)
    (hread : readHeaders r.source = (.ok headers, rest)) {header : FrameHeader} {r' : FrameReader}
    (hnext : r.nextMessage = (.ok header, r')) : header.contentLength = headers.contentLength? := by
  obtain ⟨ready, rest', hdiscard, hblock, hlength, -, -⟩ := of_nextMessage hnext
  rw [discardBody_eq h] at hdiscard
  cases hdiscard
  rw [hread] at hblock
  cases hblock
  exact hlength.symm

def Takes (r : FrameReader) (n : Nat) (body more : Bytes) : Prop :=
  ∃ header within behind, r.nextMessage = (.ok header, within) ∧ header.contentLength = some n ∧
    within.readBody = (.ok body, behind) ∧ Stands r.maxMessageSize more 0 behind

theorem takes_of_lengthRead? {body more : Bytes} (hvalid : FrameWriter.invalidKey? headers = none)
    (hnamed : ∀ e ∈ headers.entries, Text.trimBlank e.1.toList ≠ [])
    (hlength : headers.lengthRead? = some body.length) (hmax : body.length ≤ max)
    (h : Stands max (FrameWriter.head headers ++ (body ++ more)) 0 r)
    : r.Takes body.length body more := by
  obtain ⟨rest, hrest, hbytes, hread⟩ := h.readHeaders_head hvalid hnamed
  rw [← Headers.contentLength?_received] at hlength
  have hnext := nextMessage_of_readHeaders h hread hlength hmax
  have hwithin : Stands max (body ++ more) body.length { r with
      source := rest
      pushback := none
      lastRead := none
      remaining := some body.length } :=
    ⟨hrest, hbytes, rfl, rfl, h.max⟩
  obtain ⟨behind, hwhole, hbehind⟩ := hwithin.readBody_whole
  rw [← h.max] at hbehind
  exact ⟨_, _, behind, hnext, rfl, hwhole, hbehind⟩

theorem takes_iff_inStep {n : Nat} {body more : Bytes} (hn : headers.contentLength? = some n)
    (hmax : n ≤ max) (hbody : body.length = n) (hvalid : FrameWriter.invalidKey? headers = none)
    (h : Stands max (FrameWriter.head headers ++ (body ++ more)) 0 r)
    : r.Takes n body more ↔ headers.InStep := by
  subst hbody
  by_cases hunnamed : ∃ e ∈ headers.entries, Text.trimBlank e.1.toList = []
  . -- The reader stops at a line without a key.
    obtain ⟨shown, hread⟩ := h.readHeaders_unnamed hvalid hunnamed
    have herror := nextMessage_of_readHeaders_error h hread
    constructor
    . rintro ⟨header, within, -, hnext, -⟩
      rw [hnext] at herror
      cases herror
    . rintro ⟨hnamed, -⟩
      obtain ⟨e, he, hblank⟩ := hunnamed
      exact absurd hblank (hnamed e he)
  . have hnamed : ∀ e ∈ headers.entries, Text.trimBlank e.1.toList ≠ [] := by
      simpa using hunnamed
    constructor
    . rintro ⟨header, within, -, hnext, hlength, -⟩
      obtain ⟨rest, -, -, hread⟩ := h.readHeaders_head hvalid hnamed
      have hreceived := contentLength_of_nextMessage h hread hnext
      rw [Headers.contentLength?_received, hlength] at hreceived
      exact ⟨hnamed, hreceived.symm.trans hn.symm⟩
    . rintro ⟨-, hlength⟩
      exact takes_of_lengthRead? hvalid hnamed (hlength.trans hn) hmax h

end FrameReader

namespace FrameWriter

theorem valid_of_writeMessage {w w' : FrameWriter} {headers : Headers} {body : Source}
    (h : w.writeMessage headers body = (.ok (), w')) : invalidKey? headers = none := by
  unfold writeMessage at h
  split at h
  . cases h
  . split at h
    . cases h
    . assumption

theorem accepted_of_writeMessage {policy : Sink.Policy} {headers : Headers} {body : Source}
    {w : FrameWriter} (h : (onto policy).writeMessage headers body = (.ok (), w))
    : (Submission.frame headers body).IsWhole ∧
        w.sink.accepted = head headers ++ body.upTo headers.contentLength? := by
  have houtcome := submit_outcome (onto policy) (.frame headers body)
  change Outcome _ _ ((onto policy).writeMessage headers body).1
    ((onto policy).writeMessage headers body).2 at houtcome
  rw [h] at houtcome
  cases houtcome with
  | written _ _ _ hwhole htook =>
    refine ⟨hwhole, htook.accepted.trans ?_⟩
    rw [Submission.encoding, ← head_eq]
    rfl

/--
A frame that was written without an error and is read back, in chunks of any size and whatever
follows it: the reader takes it whole, with the length that its headers declare and the body that
was written, exactly if each key has more than blanks and the last header whose key a reader takes
for the length's declares that length. So it is wherever a reader takes each key as it is.
-/
theorem takes_iff_inStep_of_write {policy : Sink.Policy} {headers : Headers} {body : Source}
    {w : FrameWriter} (hwrite : (onto policy).writeMessage headers body = (.ok (), w)) {n max : Nat}
    (hn : headers.contentLength? = some n) (hmax : n ≤ max) {chunks : List Bytes} {more : Bytes}
    (hchunks : chunks.flatten = w.sink.accepted ++ more)
    : (body.upTo (some n)).length = n ∧
        (FrameReader.Takes { source := chunks.map .data, maxMessageSize := max } n
          (body.upTo (some n)) more ↔ headers.InStep) ∧
        ((∀ e ∈ headers.entries, Headers.keyRead e.1 = e.1) → headers.InStep) := by
  have hvalid := valid_of_writeMessage hwrite
  obtain ⟨hwhole, haccepted⟩ := accepted_of_writeMessage hwrite
  have hlength : (body.upTo (some n)).length = n := by
    rw [← hn]
    exact hwhole n hn
  rw [hn] at haccepted
  refine ⟨hlength, ?_, ?_⟩
  . apply FrameReader.takes_iff_inStep hn hmax hlength hvalid
    refine ⟨.ofChunks chunks, ?_, rfl, rfl, rfl⟩
    rw [Source.bytes_ofChunks, hchunks, haccepted, List.append_assoc]
  . intro hkeys
    exact Headers.inStep_of_keyRead
      (fun e he => (of_isWritable (forall_isWritable hvalid e he)).1) hkeys

def hello : Bytes := Text.Utf8.encode "hello"

def smuggled : Headers :=
  (Headers.empty.insert "Content-Length " "2").setContentLength 5

theorem smuggled_written
    : ∃ w, (onto slowly).writeMessage smuggled (.ofBytes hello) = (.ok (), w) ∧
        smuggled.contentLength? = some 5 ∧
        FrameReader.Takes { source := [.data w.sink.accepted] } 2 (hello.take 2) (hello.drop 2) ∧
        ¬FrameReader.Takes { source := [.data w.sink.accepted] } 5 hello [] := by
  have hwrite : ((onto slowly).writeMessage smuggled (.ofBytes hello)).1 = .ok () := by
    decide +kernel
  rcases hresult : (onto slowly).writeMessage smuggled (.ofBytes hello) with ⟨answer, w⟩
  rw [hresult] at hwrite
  subst hwrite
  have hvalid := valid_of_writeMessage hresult
  have hlength : smuggled.contentLength? = some 5 := by decide +kernel
  have hread : smuggled.lengthRead? = some 2 := by decide +kernel
  have hnamed : ∀ e ∈ smuggled.entries, Text.trimBlank e.1.toList ≠ [] := by decide +kernel
  have haccepted : w.sink.accepted = head smuggled ++ hello := by
    rw [(accepted_of_writeMessage hresult).2, hlength]
    rfl
  have hstands (body more : Bytes) (hsplit : hello = body ++ more)
      : FrameReader.Stands defaultMaxMessageSize (head smuggled ++ (body ++ more)) 0
          { source := [.data w.sink.accepted] } := by
    refine ⟨.ofChunks [w.sink.accepted], ?_, rfl, rfl, rfl⟩
    rw [← hsplit, ← haccepted]
    simp [Source.bytes]
  refine ⟨w, rfl, hlength, ?_, ?_⟩
  . have htwo : (hello.take 2).length = 2 := by decide
    have htaken := FrameReader.takes_of_lengthRead? hvalid hnamed (hread.trans (by rw [htwo]))
      (by decide) (hstands (hello.take 2) (hello.drop 2) (List.take_append_drop 2 hello).symm)
    rw [htwo] at htaken
    exact htaken
  . intro htakes
    have hiff :=
      FrameReader.takes_iff_inStep hlength (by decide) rfl hvalid (hstands hello [] (by simp))
    have hsame := (hiff.1 htakes).length
    rw [hread, hlength] at hsame
    cases hsame

def blankEnded : Headers :=
  (Headers.empty.insert "Trace " " on ").setContentLength 5

theorem takes_iff_inStep_of_blankEnded
    : ∃ w, (onto slowly).writeMessage blankEnded (.ofBytes (hello ++ hello)) = (.ok (), w) ∧
        FrameReader.Takes
          { source := [w.sink.accepted, hello].map .data, maxMessageSize := 5 } 5 hello hello := by
  have hwrite : ((onto slowly).writeMessage blankEnded (.ofBytes (hello ++ hello))).1 = .ok () := by
    decide +kernel
  rcases hresult : (onto slowly).writeMessage blankEnded (.ofBytes (hello ++ hello)) with
    ⟨answer, w⟩
  rw [hresult] at hwrite
  subst hwrite
  have hlength : blankEnded.contentLength? = some 5 := by decide +kernel
  have hinStep : blankEnded.InStep := ⟨by decide +kernel, by decide +kernel⟩
  have hchunks : [w.sink.accepted, hello].flatten = w.sink.accepted ++ hello := by simp
  obtain ⟨-, hiff, -⟩ := takes_iff_inStep_of_write hresult hlength (Nat.le_refl 5) hchunks
  exact ⟨w, rfl, hiff.2 hinStep⟩

end FrameWriter

end JsonRpc
