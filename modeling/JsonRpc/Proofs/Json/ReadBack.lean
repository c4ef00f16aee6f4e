import JsonRpc.Proofs.Json.Scanning
import JsonRpc.Proofs.Keyed

/-!
Values that are read as they are printed, with the members of each object in ascending order. Only
the floats and the nesting limit of the reader stand in the way.
-/

namespace JsonRpc

def Binary64.ReadsBack (x : Binary64) : Prop :=
  Json.decode? (Json.number (.float x)).encode = some (.number (.float x))

namespace Json

open Text

mutual

def sorted : Json → Json
  | .array items => .array (sortedItems items)
  | .object members => .object (Keyed.ofList (sortedMembers members))
  | v => v

def sortedItems : List Json → List Json
  | [] => []
  | item :: items => item.sorted :: sortedItems items

def sortedMembers : List (String × Json) → List (String × Json)
  | [] => []
  | (key, value) :: members => (key, value.sorted) :: sortedMembers members

end

inductive Readable : Nat → Json → Prop where
  | null {depth : Nat} : Readable depth .null
  | bool {depth : Nat} (value : Bool) : Readable depth (.bool value)
  | integer {depth : Nat} (n : Int) (hn : -(1 <<< 63 : Nat) ≤ n ∧ n < (1 <<< 64 : Nat)) :
    Readable depth (.number (.integer n hn))
  | float {depth : Nat} (x : Binary64) (hx : x.ReadsBack) : Readable depth (.number (.float x))
  | string {depth : Nat} (s : String) : Readable depth (.string s)
  | array {depth : Nat} (items : List Json) (hitems : ∀ v ∈ items, Readable depth v) :
    Readable (depth + 1) (.array items)
  | object {depth : Nat} (members : List (String × Json))
    (hmembers : ∀ e ∈ members, Readable depth e.2) : Readable (depth + 1) (.object members)

theorem Readable.succ {depth : Nat} {v : Json} (h : Readable depth v)
    : Readable (depth + 1) v := by
  induction h with
  | null => exact .null
  | bool value => exact .bool value
  | integer n hn => exact .integer n hn
  | float x hx => exact .float x hx
  | string s => exact .string s
  | array items _ ih => exact .array items ih
  | object members _ ih => exact .object members ih

theorem plain_of_isNumeric {c : Char} (h : isNumeric c = true)
    : isSpace c = false ∧ c ≠ 'n' ∧ c ≠ 't' ∧ c ≠ 'f' ∧ c ≠ '"' ∧ c ≠ '[' ∧ c ≠ ']' ∧ c ≠ '\x7b' := by
  refine ⟨?_, ?_, ?_, ?_, ?_, ?_, ?_, ?_⟩
  . cases hspace : isSpace c with
    | false => rfl
    | true =>
      simp only [isSpace, Bool.or_eq_true, decide_eq_true_eq] at hspace
      rcases hspace with ((rfl | rfl) | rfl) | rfl <;> cases h
  all_goals
    rintro rfl
    cases h

theorem skipSpace_cons {c : Char} (h : isSpace c = false) (rest : List Char)
    : skipSpace (c :: rest) = c :: rest := by
  simp [skipSpace, h]

theorem text_ne_nil (n : Number) : n.text ≠ [] := by
  cases n with
  | integer n hn =>
    change (decimalInt n).toList ≠ []
    unfold decimalInt decimal
    split <;> simp [digits_ne_nil]
  | float x =>
    change floatText x ≠ []
    unfold floatText positional scientific
    dsimp only
    split
    . simp
    . split
      . split
        . simp
        . split <;> simp
      . simp

theorem exists_cons_chars (v : Json)
    : ∃ c tail, v.chars = c :: tail ∧ isSpace c = false ∧ c ≠ ']' := by
  cases v with
  | null => exact ⟨_, _, rfl, by decide⟩
  | bool value => cases value <;> exact ⟨_, _, rfl, by decide⟩
  | number n =>
    obtain ⟨c, tail, htext⟩ := List.exists_cons_of_ne_nil (text_ne_nil n)
    have hc := plain_of_isNumeric (isNumeric_text n c (by rw [htext]; exact List.mem_cons_self))
    exact ⟨c, tail, htext, hc.1, hc.2.2.2.2.2.2.1⟩
  | string s => exact ⟨_, _, rfl, by decide⟩
  | array items => cases items <;> exact ⟨_, _, rfl, by decide⟩
  | object members => cases members <;> exact ⟨_, _, rfl, by decide⟩

theorem scanValue?_numeric {c : Char} (hc : isNumeric c = true) (fuel depth : Nat)
    (rest : List Char)
    : scanValue? (fuel + 1) depth (c :: rest)
        =
      (scanNumber? (c :: rest)).map fun (n, rest) => (.number n, rest) := by
  obtain ⟨hspace, hn, ht, hf, hquote, hbracket, -, hbrace⟩ := plain_of_isNumeric hc
  rw [scanValue?, skipSpace_cons hspace]
  split
  . next heq => exact absurd (List.cons.inj heq).1 hn
  . next heq => exact absurd (List.cons.inj heq).1 ht
  . next heq => exact absurd (List.cons.inj heq).1 hf
  . next heq => exact absurd (List.cons.inj heq).1 hquote
  . next heq => exact absurd (List.cons.inj heq).1 hbracket
  . next heq => exact absurd (List.cons.inj heq).1 hbrace
  . rfl

theorem decode?_encode_eq (v : Json) : decode? v.encode = ofChars? v.chars := by
  have hencode : v.encode = Utf8.encode (String.ofList v.chars) := by
    unfold encode Utf8.encode
    rw [String.toList_ofList]
  unfold decode? parse?
  rw [hencode, Utf8.decode?_encode, Option.bind_some, String.toList_ofList]

theorem skipSpace_of_none {cs : List Char} (h : ∀ c ∈ cs, isSpace c = false)
    : skipSpace cs = cs := by
  cases cs with
  | nil => rfl
  | cons c cs => exact skipSpace_cons (h c List.mem_cons_self) cs

theorem scanNumber?_float {x : Binary64} (hx : x.ReadsBack) {rest : List Char}
    (hrest : EndsNumber rest)
    : scanNumber? ((Number.float x).text ++ rest) = some (.float x, rest) := by
  have hnumeric := isNumeric_text (.float x)
  obtain ⟨c, tail, htext⟩ := List.exists_cons_of_ne_nil (text_ne_nil (.float x))
  have hread : ofChars? (Number.float x).text = some (.number (.float x)) := by
    rw [← hx]
    exact (decode?_encode_eq (.number (.float x))).symm
  unfold ofChars? at hread
  rw [htext, scanValue?_numeric (hnumeric c (by rw [htext]; exact List.mem_cons_self)), ← htext]
    at hread
  -- Nothing but the number is found, since there is no blank in its text.
  cases hscan : scanNumber? (Number.float x).text with
  | none =>
    rw [hscan] at hread
    cases hread
  | some found =>
    obtain ⟨n, left⟩ := found
    obtain ⟨hsuffix, hlocal⟩ := isLocal_scanNumber? _ n left hscan
    have hleft : skipSpace left = left :=
      skipSpace_of_none fun c hc => (plain_of_isNumeric (hnumeric c (hsuffix.subset hc))).1
    rw [hscan] at hread
    simp only [Option.map_some, hleft, List.isEmpty_iff, Option.ite_none_right_eq_some,
      Option.some.injEq, number.injEq] at hread
    obtain ⟨rfl, rfl⟩ := hread
    exact hlocal rest hrest

theorem length_le_escaped (cs : List Char) : cs.length ≤ (cs.flatMap escapeChar).length := by
  induction cs with
  | nil => apply Nat.le_refl
  | cons c cs ih =>
    have hpos : 0 < (escapeChar c).length := by
      unfold escapeChar
      repeat' split
      all_goals simp
    rw [List.length_cons, List.flatMap_cons, List.length_append]
    omega

theorem length_stringText (s : String) : s.toList.length + 2 ≤ (stringText s).length := by
  have := length_le_escaped s.toList
  simp only [stringText, List.cons_append, List.length_cons, List.length_append, List.length_nil]
  omega

theorem scanString?_stringText {fuel : Nat} {s : String} (hfuel : (stringText s).length ≤ fuel)
    (rest : List Char)
    : ∃ cs, stringText s ++ rest = '"' :: cs ∧ scanString? fuel [] cs = some (s, rest) := by
  have := length_stringText s
  refine ⟨s.toList.flatMap escapeChar ++ '"' :: rest, by simp [stringText], ?_⟩
  rw [scanString?_escape (by omega), List.reverse_nil, List.nil_append, String.ofList_toList]

theorem scanName?_stringText {fuel : Nat} {key : String} (hfuel : (stringText key).length ≤ fuel)
    (rest : List Char) : scanName? fuel (stringText key ++ ':' :: rest) = some (key, rest) := by
  obtain ⟨cs, hcs, hscan⟩ := scanString?_stringText hfuel (':' :: rest)
  unfold scanName?
  rw [hcs, skipSpace_cons (by decide)]
  simp only [hscan, skipSpace_cons (show isSpace ':' = false by decide)]

def ReadsAt (depth : Nat) (v : Json) : Prop :=
  ∀ fuel rest, 2 * v.chars.length ≤ fuel → EndsNumber rest →
    scanValue? fuel depth (v.chars ++ rest) = some (v.sorted, rest)

theorem exists_succ_of_chars {v : Json} {fuel : Nat} (h : 2 * v.chars.length ≤ fuel)
    : ∃ less, fuel = less + 1 := by
  obtain ⟨c, tail, hchars, -⟩ := exists_cons_chars v
  rw [hchars, List.length_cons] at h
  exact Nat.exists_eq_succ_of_ne_zero (by omega)

theorem itemsChars_pos (items : List Json) : 0 < (itemsChars items).length := by
  cases items <;> simp [itemsChars]

theorem endsNumber_itemsChars (items : List Json) (rest : List Char)
    : EndsNumber (itemsChars items ++ rest) := by
  cases items <;> exact endsNumber_cons (by decide)

theorem scanItems?_itemsChars {depth : Nat} {item : Json} {items : List Json}
    (hitem : ReadsAt depth item) (hitems : ∀ v ∈ items, ReadsAt depth v) {fuel : Nat}
    (hfuel : 2 * (item.chars.length + (itemsChars items).length) ≤ fuel) (acc : List Json)
    (rest : List Char)
    : scanItems? fuel depth acc (item.chars ++ itemsChars items ++ rest)
        =
      some (.array (acc.reverse ++ item.sorted :: sortedItems items), rest) := by
  induction items generalizing item fuel acc with
  | nil =>
    have := itemsChars_pos []
    obtain ⟨fuel, rfl⟩ := Nat.exists_eq_succ_of_ne_zero (show fuel ≠ 0 by omega)
    rw [scanItems?, List.append_assoc, hitem fuel _ (by omega) (endsNumber_itemsChars [] rest)]
    dsimp only [itemsChars, List.cons_append]
    rw [skipSpace_cons (by decide)]
    simp [sortedItems]
  | cons next items ih =>
    have := itemsChars_pos (next :: items)
    obtain ⟨fuel, rfl⟩ := Nat.exists_eq_succ_of_ne_zero (show fuel ≠ 0 by omega)
    rw [scanItems?, List.append_assoc,
      hitem fuel _ (by omega) (endsNumber_itemsChars (next :: items) rest)]
    simp only [itemsChars, List.cons_append, List.length_cons, List.length_append] at hfuel ⊢
    rw [skipSpace_cons (by decide)]
    change scanItems? fuel depth (item.sorted :: acc) (next.chars ++ itemsChars items ++ rest) = _
    rw [ih (hitems next List.mem_cons_self) (fun v hv => hitems v (List.mem_cons_of_mem _ hv))
      (by omega)]
    simp [sortedItems]

theorem endsNumber_membersChars (members : List (String × Json)) (rest : List Char)
    : EndsNumber (membersChars members ++ rest) := by
  cases members <;> exact endsNumber_cons (by decide)

theorem scanMembers?_membersChars {depth : Nat} (key : String) {value : Json}
    {members : List (String × Json)} (hvalue : ReadsAt depth value)
    (hmembers : ∀ e ∈ members, ReadsAt depth e.2) {fuel : Nat}
    (hfuel : 2 * ((stringText key).length + 1 + value.chars.length + (membersChars members).length)
      ≤ fuel) (acc : List (String × Json)) (rest : List Char)
    : scanMembers? fuel depth acc
          (stringText key ++ ':' :: value.chars ++ membersChars members ++ rest)
        =
      some (.object ((sortedMembers members).foldl (fun acc e => Keyed.insert e.1 e.2 acc)
        (Keyed.insert key value.sorted acc)), rest) := by
  induction members generalizing key value fuel acc with
  | nil =>
    obtain ⟨fuel, rfl⟩ := Nat.exists_eq_succ_of_ne_zero (show fuel ≠ 0 by omega)
    rw [scanMembers?, List.append_assoc, List.append_assoc, List.cons_append,
      scanName?_stringText (by omega)]
    dsimp only
    rw [hvalue fuel _ (by omega) (endsNumber_membersChars [] rest)]
    dsimp only [membersChars, List.cons_append]
    rw [skipSpace_cons (by decide)]
    rfl
  | cons next members ih =>
    obtain ⟨fuel, rfl⟩ := Nat.exists_eq_succ_of_ne_zero (show fuel ≠ 0 by omega)
    obtain ⟨nextKey, nextValue⟩ := next
    rw [scanMembers?, List.append_assoc, List.append_assoc, List.cons_append,
      scanName?_stringText (by omega)]
    dsimp only
    rw [hvalue fuel _ (by omega) (endsNumber_membersChars _ rest)]
    simp only [membersChars, List.cons_append, List.length_cons, List.length_append] at hfuel ⊢
    rw [skipSpace_cons (by decide)]
    change scanMembers? fuel depth (Keyed.insert key value.sorted acc)
      (stringText nextKey ++ ':' :: nextValue.chars ++ membersChars members ++ rest) = _
    have hnext : ReadsAt depth nextValue := hmembers (nextKey, nextValue) List.mem_cons_self
    rw [ih nextKey hnext (fun e he => hmembers e (List.mem_cons_of_mem _ he)) (by omega)]
    rfl

theorem readsAt_number {depth : Nat} {n : Number}
    (h : ∀ rest, EndsNumber rest → scanNumber? (n.text ++ rest) = some (n, rest))
    : ReadsAt depth (.number n) := by
  intro fuel rest hfuel hrest
  obtain ⟨fuel, rfl⟩ := exists_succ_of_chars hfuel
  change scanValue? (fuel + 1) depth (n.text ++ rest) = some (.number n, rest)
  obtain ⟨c, tail, htext⟩ := List.exists_cons_of_ne_nil (text_ne_nil n)
  have hc : isNumeric c = true := isNumeric_text n c (by rw [htext]; exact List.mem_cons_self)
  have hscan := h rest hrest
  rw [htext, List.cons_append] at hscan ⊢
  rw [scanValue?_numeric hc, hscan]
  rfl

theorem readsAt_string (depth : Nat) (s : String) : ReadsAt depth (.string s) := by
  intro fuel rest hfuel hrest
  obtain ⟨fuel, rfl⟩ := exists_succ_of_chars hfuel
  change 2 * (stringText s).length ≤ fuel + 1 at hfuel
  have := length_stringText s
  obtain ⟨cs, hcs, hscan⟩ := scanString?_stringText (show (stringText s).length ≤ fuel by omega) rest
  change scanValue? (fuel + 1) depth (stringText s ++ rest) = some (.string s, rest)
  rw [hcs, scanValue?, skipSpace_cons (by decide)]
  change (scanString? fuel [] cs).map _ = _
  rw [hscan]
  rfl

theorem scanValue?_bracket {c : Char} (hspace : isSpace c = false) (hclose : c ≠ ']')
    (fuel depth : Nat) (tail : List Char)
    : scanValue? (fuel + 1) (depth + 1) ('[' :: c :: tail) = scanItems? fuel depth [] (c :: tail) := by
  rw [scanValue?, skipSpace_cons (by decide)]
  simp only [skipSpace_cons hspace]
  split
  . next hdepth => exact absurd hdepth (Nat.succ_ne_zero depth)
  . next heq => exact absurd (List.cons.inj heq).1 hclose
  . next hdepth _ =>
    cases hdepth
    rfl

theorem readsAt_array {depth : Nat} {items : List Json} (hitems : ∀ v ∈ items, ReadsAt depth v)
    : ReadsAt (depth + 1) (.array items) := by
  intro fuel rest hfuel _
  cases items with
  | nil =>
    obtain ⟨fuel, rfl⟩ := exists_succ_of_chars hfuel
    rfl
  | cons item items =>
    obtain ⟨fuel, rfl⟩ := exists_succ_of_chars hfuel
    simp only [chars, List.cons_append, List.length_cons, List.length_append] at hfuel ⊢
    have hscan := scanItems?_itemsChars (hitems item List.mem_cons_self)
      (fun v hv => hitems v (List.mem_cons_of_mem _ hv)) (show _ ≤ fuel by omega) [] rest
    obtain ⟨c, tail, hitem, hspace, hclose⟩ := exists_cons_chars item
    rw [hitem] at hscan ⊢
    exact (scanValue?_bracket hspace hclose fuel depth _).trans hscan

theorem readsAt_object {depth : Nat} {members : List (String × Json)}
    (hmembers : ∀ e ∈ members, ReadsAt depth e.2) : ReadsAt (depth + 1) (.object members) := by
  intro fuel rest hfuel _
  cases members with
  | nil =>
    obtain ⟨fuel, rfl⟩ := exists_succ_of_chars hfuel
    rfl
  | cons first members =>
    obtain ⟨key, value⟩ := first
    obtain ⟨fuel, rfl⟩ := exists_succ_of_chars hfuel
    simp only [chars, List.cons_append, List.length_cons, List.length_append] at hfuel ⊢
    have hvalue : ReadsAt depth value := hmembers (key, value) List.mem_cons_self
    have hscan := scanMembers?_membersChars key hvalue
      (fun e he => hmembers e (List.mem_cons_of_mem _ he)) (show _ ≤ fuel by omega) [] rest
    exact hscan

theorem readsAt_of_readable {depth : Nat} {v : Json} (h : Readable depth v) : ReadsAt depth v := by
  induction h with
  | null =>
    intro fuel rest hfuel _
    obtain ⟨fuel, rfl⟩ := exists_succ_of_chars hfuel
    rfl
  | bool value =>
    intro fuel rest hfuel _
    cases value <;>
    . obtain ⟨fuel, rfl⟩ := exists_succ_of_chars hfuel
      rfl
  | integer n hn => exact readsAt_number fun rest => scanNumber?_integer n hn
  | float x hx => exact readsAt_number fun rest => scanNumber?_float hx
  | string s => exact readsAt_string _ s
  | array items hitems ih => exact readsAt_array ih
  | object members hmembers ih => exact readsAt_object ih

theorem decode?_encode {v : Json} (h : Readable maxDepth v) : decode? v.encode = some v.sorted := by
  have hscan := readsAt_of_readable h (2 * v.chars.length + 2) [] (by omega) endsNumber_nil
  rw [List.append_nil] at hscan
  rw [decode?_encode_eq, ofChars?, hscan]
  rfl

theorem sortedMembers_cons (e : String × Json) (members : List (String × Json))
    : sortedMembers (e :: members) = (e.1, e.2.sorted) :: sortedMembers members := by
  obtain ⟨key, value⟩ := e
  rw [sortedMembers]

theorem sortedMembers_of_sorted {members : List (String × Json)}
    (h : ∀ e ∈ members, e.2.sorted = e.2) : sortedMembers members = members := by
  induction members with
  | nil => rfl
  | cons e members ih =>
    rw [sortedMembers_cons, h e List.mem_cons_self, ih fun e he => h e (List.mem_cons_of_mem _ he)]

structure Faithful (depth : Nat) (v : Json) : Prop where
  readable : Readable depth v
  sorted : v.sorted = v

theorem sortedMembers_eq (members : Members)
    : sortedMembers members = members.map fun e => (e.1, e.2.sorted) := by
  induction members with
  | nil => rfl
  | cons e members ih => rw [sortedMembers_cons, ih, List.map_cons]

theorem sortedItems_eq (items : List Json) : sortedItems items = items.map sorted := by
  induction items with
  | nil => rfl
  | cons item items ih => rw [sortedItems, ih, List.map_cons]

theorem ascending_of_sorted {members : Members} (h : (object members).sorted = .object members)
    : Keyed.Ascending members := by
  rw [sorted, object.injEq] at h
  rw [← h]
  apply Keyed.ascending_ofList

theorem sorted_of_mem {members : Members} (h : (object members).sorted = .object members)
    {e : String × Json} (he : e ∈ members) : e.2.sorted = e.2 := by
  have hascending : Keyed.Ascending (sortedMembers members) := by
    rw [sortedMembers_eq]
    exact List.pairwise_map.2 (ascending_of_sorted h)
  rw [sorted, Keyed.ofList_of_ascending hascending, object.injEq, sortedMembers_eq] at h
  have heq : members.map (fun e => (e.1, e.2.sorted)) = members.map id := by rw [h, List.map_id]
  exact congrArg Prod.snd (List.map_inj_left.1 heq e he)

theorem Faithful.member {depth : Nat} {members : Members}
    (h : Faithful (depth + 1) (.object members)) {e : String × Json} (he : e ∈ members)
    : Faithful depth e.2 := by
  cases h.readable with
  | object _ hmembers => exact ⟨hmembers e he, sorted_of_mem h.sorted he⟩

theorem Faithful.item {depth : Nat} {items : List Json} (h : Faithful (depth + 1) (.array items))
    {v : Json} (hv : v ∈ items) : Faithful depth v := by
  have heq : items.map Json.sorted = items.map id := by
    have hsorted := h.sorted
    rw [Json.sorted, array.injEq, sortedItems_eq] at hsorted
    rw [hsorted, List.map_id]
  cases h.readable with
  | array _ hitems => exact ⟨hitems v hv, List.map_inj_left.1 heq v hv⟩

theorem decode?_encode_object {members : Members}
    (h : ∀ e ∈ members, Readable (maxDepth - 1) e.2)
    : decode? (object members).encode = some (.object (Keyed.ofList (sortedMembers members))) := by
  exact decode?_encode (.object members h)

end Json

end JsonRpc
