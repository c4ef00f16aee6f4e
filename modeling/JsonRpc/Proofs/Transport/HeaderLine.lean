import JsonRpc.Proofs.Text.Utf8
import JsonRpc.Proofs.Transport.Source
import JsonRpc.Transport.FrameReader

/-!
The lines of a header block, told apart by their bytes: a header, a line without a text, and a line
that is neither.
-/

namespace JsonRpc

open Source (lineFeed)

namespace Text

theorem dropWhile_eq_iff {p : Char → Bool} {cs kept : List Char}
    : cs.dropWhile p = kept
        ↔
      ∃ before, cs = before ++ kept ∧ (∀ c ∈ before, p c) ∧ ∀ c ∈ kept.head?, p c = false := by
  constructor
  . rintro rfl
    refine ⟨cs.takeWhile p, List.takeWhile_append_dropWhile.symm, ?_, ?_⟩
    . intro c hc
      exact List.mem_takeWhile_imp hc
    . intro c hc
      have hstop := List.head?_dropWhile_not p cs
      rw [hc] at hstop
      simpa using hstop
  . rintro ⟨before, rfl, hbefore, hkept⟩
    rw [List.dropWhile_append_of_pos hbefore]
    cases kept with
    | nil => rfl
    | cons c kept => rw [List.dropWhile_cons_of_neg (by simp [hkept c rfl])]

theorem dropEnd_eq_iff {p : Char → Bool} {cs kept : List Char}
    : dropEnd p cs = kept
        ↔
      ∃ after, cs = kept ++ after ∧ (∀ c ∈ after, p c) ∧ ∀ c ∈ kept.getLast?, p c = false := by
  rw [dropEnd, List.reverse_eq_iff, dropWhile_eq_iff, List.head?_reverse]
  constructor
  . rintro ⟨before, hcs, hbefore, hkept⟩
    refine ⟨before.reverse, ?_, by simpa using hbefore, hkept⟩
    rw [← List.reverse_inj, hcs, List.reverse_append, List.reverse_reverse]
  . rintro ⟨after, rfl, hafter, hkept⟩
    exact ⟨after.reverse, List.reverse_append, by simpa using hafter, hkept⟩

def Trims (cs inner : List Char) : Prop :=
  ∃ before after, cs = before ++ (inner ++ after) ∧ (∀ c ∈ before, isBlank c) ∧
    (∀ c ∈ after, isBlank c) ∧ (∀ c ∈ inner.head?, isBlank c = false) ∧
    ∀ c ∈ inner.getLast?, isBlank c = false

theorem trims_iff {cs inner : List Char} : Trims cs inner ↔ trimBlank cs = inner := by
  constructor
  . rintro ⟨before, after, rfl, hbefore, hafter, hfirst, hlast⟩
    rw [trimBlank, List.dropWhile_append_of_pos hbefore]
    cases inner with
    | nil =>
      rw [List.nil_append, List.dropWhile_eq_nil_iff.2 hafter]
      rfl
    | cons c inner =>
      rw [List.cons_append, List.dropWhile_cons_of_neg (by simp [hfirst c rfl]),
        ← List.cons_append]
      exact dropEnd_eq_iff.2 ⟨after, rfl, hafter, hlast⟩
  . intro h
    obtain ⟨after, hdrop, hafter, hlast⟩ := dropEnd_eq_iff.1 h
    obtain ⟨before, hcs, hbefore, hfirst⟩ := dropWhile_eq_iff.1 hdrop
    refine ⟨before, after, hcs, hbefore, hafter, ?_, hlast⟩
    intro c hc
    apply hfirst
    simp [Option.mem_def.1 hc]

theorem Trims.subset {cs inner : List Char} (h : Trims cs inner) : inner ⊆ cs := by
  obtain ⟨before, after, rfl, -⟩ := h
  intro c hc
  simp [hc]

theorem trimBlank_trimBlank (cs : List Char) : trimBlank (trimBlank cs) = trimBlank cs := by
  obtain ⟨before, after, -, -, -, hfirst, hlast⟩ := trims_iff.2 (rfl : trimBlank cs = _)
  exact trims_iff.1 ⟨[], [], by simp, by simp, by simp, hfirst, hlast⟩

theorem trimBlank_eq_self_iff {cs : List Char}
    : trimBlank cs = cs
        ↔
      (cs.map isBlank).head? ≠ some true ∧ (cs.map isBlank).getLast? ≠ some true := by
  rw [← trims_iff]
  simp only [List.head?_map, List.getLast?_map, ne_eq, Option.map_eq_some_iff, not_exists, not_and,
    Bool.not_eq_true]
  constructor
  . rintro ⟨before, after, -, -, -, hends⟩
    exact hends
  . intro hends
    exact ⟨[], [], by simp, by simp, by simp, hends⟩

theorem trimBlank_of_none {cs : List Char} (h : ∀ c ∈ cs, isBlank c = false)
    : trimBlank cs = cs := by
  rw [← trims_iff]
  refine ⟨[], [], by simp, by simp, by simp, ?_, ?_⟩
  . exact fun c hc => h c (List.mem_of_head? hc)
  . exact fun c hc => h c (List.mem_of_getLast? hc)

theorem trimBlank_cons {c : Char} (h : isBlank c) (cs : List Char)
    : trimBlank (c :: cs) = trimBlank cs := by
  unfold trimBlank
  rw [List.dropWhile_cons_of_pos h]

end Text

namespace FrameReader

def Shows (line : Bytes) (shown : List Char) : Prop :=
  ∃ ends, Text.Utf8.encode (String.ofList (shown ++ ends)) = line ∧
    (∀ c ∈ ends, isLineEnd c) ∧ ∀ c ∈ shown.getLast?, isLineEnd c = false

def IsHeader (line : Bytes) (key value : String) : Prop :=
  ∃ before after, Shows line (before ++ ':' :: after) ∧ ':' ∉ before ∧
    Text.Trims before key.toList ∧ Text.Trims after value.toList ∧ key ≠ ""

inductive Offends (line : Bytes) : (shown : String) → Prop
  | undecodable (invalid : ∀ text, Text.Utf8.encode text ≠ line)
      : Offends line (Text.Utf8.decodeLossy line)
  | colonless {shown : List Char} (shows : Shows line shown) (nonempty : shown ≠ [])
      (colonless : ':' ∉ shown) : Offends line (String.ofList shown)
  | keyless {before after : List Char} (shows : Shows line (before ++ ':' :: after))
      (blank : ∀ c ∈ before, Text.isBlank c) : Offends line (String.ofList (before ++ ':' :: after))

theorem shows_iff {line : Bytes} {shown : List Char}
    : Shows line shown
        ↔
      ∃ text, Text.Utf8.decode? line = some text ∧ Text.dropEnd isLineEnd text.toList = shown := by
  simp only [Text.Utf8.decode?_eq_some_iff, Text.dropEnd_eq_iff]
  constructor
  . rintro ⟨ends, hline, hends, hshown⟩
    exact ⟨_, hline, ends, String.toList_ofList, hends, hshown⟩
  . rintro ⟨text, hline, ends, htext, hends, hshown⟩
    refine ⟨ends, ?_, hends, hshown⟩
    rw [← htext, String.ofList_toList]
    exact hline

theorem shows_or_undecodable (line : Bytes)
    : (∃ shown, Shows line shown) ∨ ∀ text, Text.Utf8.encode text ≠ line := by
  cases htext : Text.Utf8.decode? line with
  | some text => exact .inl ⟨_, shows_iff.2 ⟨text, htext, rfl⟩⟩
  | none =>
    right
    intro text hline
    rw [Text.Utf8.decode?_eq_some_iff.2 hline] at htext
    cases htext

theorem newline_not_mem_of_shows {line : Bytes} {shown : List Char} (hline : lineFeed ∉ line)
    (h : Shows (line ++ [lineFeed]) shown) : '\n' ∉ shown := by
  obtain ⟨ends, hbytes, -, hlast⟩ := h
  intro hmem
  obtain ⟨front, back, rfl⟩ := List.append_of_mem hmem
  have hfeed : Text.Utf8.encodeChar '\n' = [lineFeed] := by decide
  simp only [Text.Utf8.encode, String.toList_ofList, List.append_assoc, List.cons_append,
    List.flatMap_append, List.flatMap_cons, hfeed, List.nil_append] at hbytes
  rcases List.eq_nil_or_concat (back.flatMap Text.Utf8.encodeChar ++
    ends.flatMap Text.Utf8.encodeChar) with hnil | ⟨more, b, hmore⟩
  . -- The line feed is the last of what is shown, where no line end is.
    obtain ⟨hback, -⟩ := List.append_eq_nil_iff.1 hnil
    cases back with
    | nil => cases hlast '\n' (by simp)
    | cons c back =>
      obtain ⟨b, tail, hchar, -⟩ := Text.Utf8.scan_encodeChar c
      simp [hchar] at hback
  . rw [hmore, List.concat_eq_append, ← List.cons_append, ← List.append_assoc] at hbytes
    apply hline
    rw [← (List.append_inj' hbytes rfl).1]
    simp

namespace HeaderLine

variable {line : Bytes} {shown before after : List Char}

theorem ofBytes_of_undecodable (h : ∀ text, Text.Utf8.encode text ≠ line)
    : ofBytes line = .malformed (Text.Utf8.decodeLossy line) := by
  have hnone : Text.Utf8.decode? line = none := by
    apply Option.eq_none_iff_forall_ne_some.2
    intro text htext
    exact h text (Text.Utf8.encode_of_decode? htext)
  rw [ofBytes, hnone]

theorem ofBytes_of_colonless (h : Shows line shown) (hcolon : ':' ∉ shown)
    : ofBytes line = if shown = [] then .blank else .malformed (String.ofList shown) := by
  obtain ⟨text, htext, rfl⟩ := shows_iff.1 h
  have hnone : (Text.dropEnd isLineEnd text.toList).dropWhile (· ≠ ':') = [] := by
    rw [List.dropWhile_eq_nil_iff]
    exact Source.kept_of_not_mem hcolon
  rw [ofBytes, htext]
  dsimp only
  rw [hnone]
  simp

theorem ofBytes_of_colon (h : Shows line (before ++ ':' :: after)) (hcolon : ':' ∉ before)
    : ofBytes line
        =
      if Text.trimBlank before = [] then
        .malformed (String.ofList (before ++ ':' :: after))
      else
        .header (String.ofList (Text.trimBlank before)) (String.ofList (Text.trimBlank after)) := by
  obtain ⟨text, htext, hshown⟩ := shows_iff.1 h
  have hbefore := Source.kept_of_not_mem hcolon
  rw [ofBytes, htext]
  dsimp only
  rw [hshown, List.dropWhile_append_of_pos hbefore, List.takeWhile_append_of_pos hbefore]
  simp

theorem ofBytes_of_isHeader {key value : String} (h : IsHeader line key value)
    : ofBytes line = .header key value := by
  obtain ⟨before, after, hshows, hcolon, hkey, hvalue, hnamed⟩ := h
  rw [ofBytes_of_colon hshows hcolon, Text.trims_iff.1 hkey, Text.trims_iff.1 hvalue,
    if_neg (by simpa using hnamed), String.ofList_toList, String.ofList_toList]

theorem ofBytes_of_offends {shown : String} (h : Offends line shown)
    : ofBytes line = .malformed shown := by
  cases h with
  | undecodable invalid => exact ofBytes_of_undecodable invalid
  | colonless shows nonempty colonless =>
    rw [ofBytes_of_colonless shows colonless, if_neg nonempty]
  | @keyless before after shows blank =>
    have hcolon : ':' ∉ before := by
      intro hmem
      cases blank ':' hmem
    have hkey : Text.trimBlank before = [] :=
      Text.trims_iff.1 ⟨before, [], by simp, blank, by simp, by simp, by simp⟩
    rw [ofBytes_of_colon shows hcolon, if_pos hkey]

end HeaderLine

theorem line_cases (line : Bytes)
    : Shows line [] ∨ (∃ key value, IsHeader line key value) ∨ ∃ shown, Offends line shown := by
  rcases shows_or_undecodable line with ⟨shown, hshows⟩ | hinvalid
  . by_cases hcolon : ':' ∈ shown
    . obtain ⟨before, after, rfl, hbefore⟩ := List.eq_append_cons_of_mem hcolon
      by_cases hkey : Text.trimBlank before = []
      . right; right
        refine ⟨_, .keyless hshows ?_⟩
        obtain ⟨first, last, hsplit, hfirst, hlast, -⟩ := Text.trims_iff.2 hkey
        rw [hsplit, List.nil_append]
        intro c hc
        exact (List.mem_append.1 hc).elim (hfirst c) (hlast c)
      . right; left
        refine ⟨String.ofList (Text.trimBlank before), String.ofList (Text.trimBlank after), before,
          after, hshows, hbefore, ?_, ?_, by simpa using hkey⟩
        . rw [String.toList_ofList]
          exact Text.trims_iff.2 rfl
        . rw [String.toList_ofList]
          exact Text.trims_iff.2 rfl
    . by_cases hnil : shown = []
      . exact .inl (hnil ▸ hshows)
      . exact .inr (.inr ⟨_, .colonless hshows hnil hcolon⟩)
  . exact .inr (.inr ⟨_, .undecodable hinvalid⟩)

theorem isHeader_of_ofBytes {line : Bytes} {key value : String}
    (h : HeaderLine.ofBytes line = .header key value) : IsHeader line key value := by
  rcases line_cases line with hblank | ⟨key', value', hheader⟩ | ⟨shown, hoffends⟩
  . rw [HeaderLine.ofBytes_of_colonless hblank List.not_mem_nil, if_pos rfl] at h
    cases h
  . rw [HeaderLine.ofBytes_of_isHeader hheader] at h
    cases h
    exact hheader
  . rw [HeaderLine.ofBytes_of_offends hoffends] at h
    cases h

end FrameReader

end JsonRpc
