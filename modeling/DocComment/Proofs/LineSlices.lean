import DocComment.Proofs.BytePositions
import DocComment.Proofs.LineCuts

/-! Reading a line by byte positions. Keywords, markers, colons and names are found as bytes, and every piece
of the line is cut out between two positions, which fails anywhere but between characters. No cut fails, and
the line is read as it is by its characters. Indentation is counted in characters and cut off in bytes. -/
namespace DocComment

namespace Line

/-- A piece of a line. Where the line ends before the piece starts, nothing is cut out. -/
def between? (raw : Text) (start stop : Nat) : Option Text :=
  if start < stop then raw.slice? start stop else some []

/-- Where a name ends: at the first blank or end marker. -/
def nameEnd (rest : Text) : Nat :=
  (rest.findBlank?.toList ++ (rest.findBytes? endMarker).toList).min?.getD rest.byteSize

/-- The name behind a keyword that ends at position `stop`, if such a keyword can have one and a colon follows
that is not the end marker's. -/
def sliceName? (raw : Text) (s : Section) (stop : Nat) : Option (Option Text) :=
  if s = .custom then do
    let behind ← raw.slice? stop raw.byteSize
    match (Text.after? [':'] behind).filter fun _ => !endMarker.isPrefixOf behind with
    | some rest => return some (← rest.slice? 0 (nameEnd rest))
    | none => return none
  else some none

def sliceTag? (raw : Text) (s : Section) (stop last : Nat) : Option Content := do
  match ← sliceName? raw s stop with
  | some name =>
    return .tag s (if name = [] then none else some name) (← between? raw (stop + 1 + name.byteSize) last)
  | none => return .tag s none (← between? raw stop last)

def sliceUntagged? (raw : Text) (last : Nat) : Option Content :=
  if raw.trimStart.head? = some ':' then
    match raw.findBytes? [':'] with
    | some colon => if colon < last then .continuation <$> raw.slice? (colon + 1) last else some .blank
    | none => some .blank
  else .plain <$> raw.slice? 0 last

/-- The section whose keyword comes first in the search order, with the byte position of that keyword. -/
def locateKeyword? (raw : Text) : Option (Section × Nat) :=
  Section.tagged.findSome? fun s => (raw.findBytes? s.keyword).map fun i => (s, i)

def sliceContent? (raw : Text) (last : Nat) : Option Content :=
  match locateKeyword? raw with
  | some (s, i) => sliceTag? raw s (i + s.keyword.byteSize) last
  | none =>
    match raw.findBytes? beginMarker with
    | some i => .begins <$> between? raw (i + beginMarker.byteSize) last
    | none => sliceUntagged? raw last

/-- Reads a line by cutting pieces out of its bytes. -/
def readBySlices? (raw : Text) : Option Line := do
  let marker := raw.findBytes? endMarker
  return ⟨← sliceContent? raw (marker.getD raw.byteSize), marker.isSome⟩

variable {raw front rest text : Text} {s : Section}

theorem slice?_to_body (raw : Text) : raw.slice? 0 (body raw).byteSize = some (body raw) := by
  obtain ⟨behind, parts⟩ := body_prefix_self raw
  exact Text.slice?_eq_some_parts_iff.mpr ⟨[], behind, parts.symm, rfl, Nat.zero_add _⟩

/-- Where the text of a line starts in front of its end, it can be cut out. -/
theorem slice?_body (start : front <+: body raw) :
    raw.slice? front.byteSize (body raw).byteSize = some ((body raw).drop front.length) := by
  obtain ⟨behind, whole⟩ := body_prefix_self raw
  obtain ⟨piece, inside⟩ := start
  rw [← inside, List.append_assoc] at whole
  rw [← inside, List.drop_left]
  exact Text.slice?_eq_some_parts_iff.mpr ⟨front, behind, whole.symm, rfl, (Text.byteSize_append _ _).symm⟩

theorem between?_body (start : front <+: raw) :
    between? raw front.byteSize (body raw).byteSize = some ((body raw).drop front.length) := by
  rw [between?]
  rcases List.prefix_or_prefix_of_prefix start (body_prefix_self raw) with inside | outside
  · split
    · exact slice?_body inside
    · next beyond =>
      rw [Text.eq_of_prefix_of_byteSize_le inside (Nat.le_of_not_lt beyond), List.drop_length]
  · have size := Text.byteSize_le_of_prefix outside
    rw [if_neg (Nat.not_lt.mpr size), List.drop_eq_nil_of_le outside.length_le]

theorem findBytes?_endMarker (raw : Text) :
    (raw.findBytes? endMarker).getD raw.byteSize = (body raw).byteSize ∧
      (raw.findBytes? endMarker).isSome = (read raw).endsBlock := by
  rw [Text.findBytes?_eq (by decide), body, read]
  cases raw.indexOf? endMarker <;> exact ⟨rfl, rfl⟩

/-- The first of two positions moves with the text in front of them. -/
private theorem min?_shift (a b : Option Nat) (n size : Nat) :
    ((a.map (· + n)).toList ++ (b.map (· + n)).toList).min?.getD (n + size) =
      n + (a.toList ++ b.toList).min?.getD size := by
  cases a <;> cases b <;> simp <;> omega

theorem nameEnd_eq (rest : Text) : nameEnd rest = (leadingName rest).byteSize := by
  rw [nameEnd, Text.findBytes?_eq (by decide)]
  fun_induction leadingName rest with
  | case1 => rfl
  | case2 rest =>
    have found : Text.indexOf? (':' :: ')' :: rest) endMarker = some 0 := rfl
    rw [found]
    cases Text.findBlank? (':' :: ')' :: rest) <;> simp
  | case3 c cs apart blank =>
    rw [Text.findBlank?, if_pos blank]
    cases Text.indexOf? (c :: cs) endMarker <;> simp
  | case4 c cs apart solid ih =>
    have later : (Text.indexOf? (c :: cs) endMarker).map (fun i => Text.byteSize ((c :: cs).take i)) =
        ((Text.indexOf? cs endMarker).map fun i => Text.byteSize (cs.take i)).map (· + c.utf8Size) := by
      have absent : ¬ endMarker <+: c :: cs := by
        rintro ⟨tail, same⟩
        obtain ⟨rfl, rfl⟩ := List.cons.inj same
        exact apart tail rfl rfl
      rw [Text.indexOf?, if_neg (by rwa [List.isPrefixOf_iff_prefix]), Option.map_map, Option.map_map]
      exact congrArg (Option.map · _) (funext fun i => Nat.add_comm _ _)
    rw [Text.findBlank?, if_neg solid, later, Text.byteSize_cons, min?_shift, ih, Text.byteSize_cons]

theorem slice?_name (rest : Text) : rest.slice? 0 (nameEnd rest) = some (leadingName rest) := by
  obtain ⟨behind, parts, _⟩ := exists_leadingName_parts rest
  rw [nameEnd_eq]
  exact Text.slice?_eq_some_parts_iff.mpr ⟨[], behind, parts, rfl, Nat.zero_add _⟩

/-- A separating colon is one that begins no end marker. -/
theorem separatedName?_eq (behind : Text) : separatedName? behind =
    ((Text.after? [':'] behind).filter fun _ => !endMarker.isPrefixOf behind).map leadingName := by
  fun_cases separatedName? behind with
  | case1 => rfl
  | case2 rest apart =>
    have absent : endMarker.isPrefixOf (':' :: rest) = false := by
      rw [Bool.eq_false_iff, ne_eq, List.isPrefixOf_iff_prefix]
      rintro ⟨tail, same⟩
      exact apart tail (List.cons.inj same).2.symm
    have colon := Text.after?_append [':'] rest
    rw [List.singleton_append] at colon
    rw [colon, absent]
    rfl
  | case3 _ _ other =>
    have noColon : Text.after? [':'] behind = none := by
      rw [Option.eq_none_iff_forall_ne_some]
      intro rest colon
      exact other rest (Text.after?_eq_some_iff.mp colon)
    rw [noColon]
    rfl

theorem sliceName?_eq (parts : raw = front ++ rest) (s : Section) :
    sliceName? raw s front.byteSize = some (if s = .custom then separatedName? rest else none) := by
  rw [sliceName?]
  split
  · have behind : raw.slice? front.byteSize raw.byteSize = some rest := by
      refine Text.slice?_eq_some_parts_iff.mpr ⟨front, [], ?_, rfl, ?_⟩
      · rw [List.append_nil, parts]
      · rw [parts, Text.byteSize_append]
    rw [behind, separatedName?_eq]
    simp only [Option.bind_eq_bind, Option.bind_some]
    cases (Text.after? [':'] rest).filter fun _ => !endMarker.isPrefixOf rest with
    | none => rfl
    | some rest => simp [slice?_name]
  · rfl

theorem sliceTag?_eq (parts : raw = front ++ rest) (s : Section) :
    sliceTag? raw s front.byteSize (body raw).byteSize = some (tagContent raw s front.length) := by
  have behind : raw.drop front.length = rest := by rw [parts, List.drop_left]
  rw [sliceTag?, sliceName?_eq parts, tagContent, behind, Option.bind_eq_bind, Option.bind_some]
  cases found : (if s = .custom then separatedName? rest else none) with
  | none =>
    have start : front <+: raw := ⟨rest, parts.symm⟩
    simp [between?_body start]
  | some name =>
    have separated : separatedName? rest = some name := by
      split at found
      · exact found
      · cases found
    rw [separatedName?_eq] at separated
    obtain ⟨inner, colon, rfl⟩ := Option.map_eq_some_iff.mp separated
    have whole := Text.after?_eq_some_iff.mp (Option.eq_some_of_filter_eq_some colon)
    obtain ⟨more, named, _⟩ := exists_leadingName_parts inner
    have start : front ++ ([':'] ++ leadingName inner) <+: raw := by
      rw [parts, whole, List.prefix_append_right_inj, List.prefix_append_right_inj]
      exact ⟨more, named.symm⟩
    have cut := between?_body start
    rw [Text.byteSize_append, Text.byteSize_append, List.length_append, List.length_append, ← Nat.add_assoc,
      ← Nat.add_assoc] at cut
    have one : Text.byteSize [':'] = 1 := rfl
    rw [one] at cut
    simp [cut]

/-- A character of a line belongs to its text, or else the text ends in front of it. -/
theorem body_around_char {w : Text} {c : Char} (parts : raw = w ++ c :: text) :
    w ++ [c] <+: body raw ∧ w.byteSize < (body raw).byteSize ∨
      body raw <+: w ∧ ¬ w.byteSize < (body raw).byteSize := by
  have start : w ++ [c] <+: raw := ⟨text, by rw [parts, List.append_assoc]; rfl⟩
  have larger : w.byteSize < (w ++ [c]).byteSize := by
    have positive := c.utf8Size_pos
    rw [Text.byteSize_append, Text.byteSize_cons]
    omega
  rcases List.prefix_or_prefix_of_prefix start (body_prefix_self raw) with inside | outside
  · exact .inl ⟨inside, Nat.lt_of_lt_of_le larger (Text.byteSize_le_of_prefix inside)⟩
  · rcases List.prefix_concat_iff.mp outside with whole | before
    · rw [whole]
      exact .inl ⟨List.prefix_rfl, larger⟩
    · exact .inr ⟨before, Nat.not_lt.mpr (Text.byteSize_le_of_prefix before)⟩

/-- A colon behind blanks starts a continuation, or else it is the end marker's. -/
theorem sliceUntagged?_eq (raw : Text) :
    sliceUntagged? raw (body raw).byteSize = some (untaggedContent raw) := by
  rw [sliceUntagged?]
  split
  · next starts =>
    obtain ⟨text, colon⟩ := List.head?_eq_some_iff.mp starts
    obtain ⟨w, blank, parts⟩ := (Text.trimStart_eq_cons_iff (by decide)).mp colon
    have absent : ':' ∉ w := fun inside => absurd (blank ':' inside) (by decide)
    have found : raw.findBytes? [':'] = some w.byteSize := by
      have first : Text.indexOf? (w ++ ':' :: text) [':'] = some w.length :=
        Text.indexOf?_append absent ⟨text, rfl⟩
      rw [Text.findBytes?_eq (List.cons_ne_nil _ _), parts, first, Option.map_some, List.take_left]
    rw [found]
    dsimp only
    rcases body_around_char parts with ⟨inside, within⟩ | ⟨before, beyond⟩
    · have cut := slice?_body inside
      obtain ⟨behind, whole⟩ := inside
      have content : untaggedContent raw = .continuation behind := by
        rw [untaggedContent_eq_continuation_iff, ← whole, List.append_assoc, Text.trimStart_append_of_blank blank]
        rfl
      have one : Text.byteSize [':'] = 1 := rfl
      rw [Text.byteSize_append, one, ← whole, List.drop_left, whole] at cut
      rw [if_pos within, cut, content]
      rfl
    · have blankBody : (body raw).trimStart = [] :=
        List.dropWhile_eq_nil_iff.mpr fun c member => blank c (before.subset member)
      rw [if_neg beyond, untaggedContent, blankBody, colon]
      rfl
  · next noColon =>
    have content : untaggedContent raw = .plain (body raw) := by
      rcases untaggedContent_cases raw with kind | ⟨text, kind⟩ | kind
      · obtain ⟨w, behind, blank, parts⟩ := untaggedContent_eq_blank_iff.mp kind
        rw [parts, Text.trimStart_append_of_blank blank] at noColon
        exact absurd rfl noColon
      · obtain ⟨behind, whole⟩ := body_prefix_self raw
        rw [untaggedContent_eq_continuation_iff] at kind
        obtain ⟨w, blank, inside⟩ := (Text.trimStart_eq_cons_iff (by decide)).mp kind
        rw [← whole, inside, List.append_assoc, Text.trimStart_append_of_blank blank] at noColon
        exact absurd rfl noColon
      · exact kind
    rw [slice?_to_body, content]
    rfl

/-- The same keyword with its position among the characters. -/
def keywordAt? (raw : Text) : Option (Section × Nat) :=
  Section.tagged.findSome? fun s => (raw.indexOf? s.keyword).map fun i => (s, i)

theorem indexOf?_of_keywordAt? {i : Nat} (found : keywordAt? raw = some (s, i)) :
    raw.indexOf? s.keyword = some i := by
  obtain ⟨t, _, reached⟩ := List.exists_of_findSome?_eq_some found
  obtain ⟨j, place, same⟩ := Option.map_eq_some_iff.mp reached
  cases same
  exact place

theorem locateKeyword?_eq (raw : Text) :
    locateKeyword? raw = (keywordAt? raw).map fun (s, i) => (s, Text.byteSize (raw.take i)) := by
  rw [locateKeyword?, keywordAt?, List.map_findSome?]
  refine congrArg (List.findSome? · _) (funext fun s => ?_)
  rw [Text.findBytes?_eq s.keyword_ne_nil, Function.comp_apply, Option.map_map, Option.map_map]
  rfl

theorem findKeyword?_eq (raw : Text) :
    findKeyword? raw = (keywordAt? raw).map fun (s, i) => (s, i + s.keyword.length) := by
  rw [findKeyword?, keywordAt?, List.map_findSome?]
  refine congrArg (List.findSome? · _) (funext fun s => ?_)
  rw [Function.comp_apply, Option.map_map]
  rfl

/-- A word that is found splits the line, and the text behind it starts at the same place in both counts. -/
theorem exists_parts_at {word : Text} {i : Nat} (nonempty : word ≠ []) (found : raw.indexOf? word = some i) :
    ∃ front rest, raw = front ++ rest ∧ front.length = i + word.length ∧
      front.byteSize = Text.byteSize (raw.take i) + word.byteSize := by
  obtain ⟨before, behind, rfl, rfl⟩ := Text.exists_parts_of_indexOf? nonempty found
  refine ⟨before ++ word, behind, rfl, List.length_append, ?_⟩
  rw [List.append_assoc, List.take_left, Text.byteSize_append]

theorem sliceContent?_eq (raw : Text) :
    sliceContent? raw (body raw).byteSize = some (readContent raw) := by
  rw [sliceContent?, readContent, locateKeyword?_eq, findKeyword?_eq]
  cases first : keywordAt? raw with
  | some found =>
    obtain ⟨s, i⟩ := found
    obtain ⟨front, rest, parts, length, size⟩ :=
      exists_parts_at s.keyword_ne_nil (indexOf?_of_keywordAt? first)
    rw [Option.map_some, Option.map_some]
    dsimp only
    rw [← length, ← size, sliceTag?_eq parts]
  | none =>
    rw [Option.map_none, Option.map_none, Text.findBytes?_eq (by decide)]
    dsimp only
    cases begins : raw.indexOf? beginMarker with
    | some i =>
      obtain ⟨front, rest, parts, length, size⟩ := exists_parts_at (by decide) begins
      have start : front <+: raw := ⟨rest, parts.symm⟩
      rw [Option.map_some]
      dsimp only
      rw [← length, ← size, between?_body start]
      rfl
    | none => exact sliceUntagged?_eq raw

theorem readBySlices?_eq (raw : Text) : readBySlices? raw = some (read raw) := by
  obtain ⟨last, ends⟩ := findBytes?_endMarker raw
  rw [readBySlices?, last, ends, sliceContent?_eq]
  rfl

end Line

namespace Text

/-- How many bytes of indentation are cut off for `count` characters. -/
def indentSize (text : Text) (count : Nat) : Nat := byteSize ((text.take count).takeWhile isBlank)

def sliceIndent? (text : Text) (count : Nat) : Option Text := text.slice? (text.indentSize count) text.byteSize

theorem takeWhile_take_eq (text : Text) (count : Nat) :
    (text.take count).takeWhile isBlank = text.take (min count text.leadingBlanks) := by
  rw [← List.take_takeWhile, leadingBlanks, ← List.take_take]
  exact congrArg (List.take count) (List.prefix_iff_eq_take.mp (List.takeWhile_prefix isBlank))

theorem leadingBlanks_le_length (text : Text) : text.leadingBlanks ≤ text.length :=
  (List.takeWhile_prefix isBlank).length_le

theorem dropIndent_eq_drop (text : Text) (count : Nat) :
    text.dropIndent count = text.drop (min count text.leadingBlanks) := by
  have bound := leadingBlanks_le_length text
  rw [dropIndent, takeWhile_take_eq, List.length_take, Nat.min_eq_left (by omega)]

theorem sliceIndent?_eq (text : Text) (count : Nat) : text.sliceIndent? count = some (text.dropIndent count) := by
  refine slice?_eq_some_parts_iff.mpr ⟨text.take (min count text.leadingBlanks), [], ?_, ?_, ?_⟩
  · rw [List.append_nil, dropIndent_eq_drop, List.take_append_drop]
  · rw [indentSize, takeWhile_take_eq]
  · rw [indentSize, takeWhile_take_eq, dropIndent_eq_drop, ← byteSize_append, List.take_append_drop]

theorem leadingBlanks_dropIndent (text : Text) (count : Nat) :
    (text.dropIndent count).leadingBlanks = text.leadingBlanks - count := by
  induction text generalizing count with
  | nil => simp
  | cons c cs ih =>
    cases blank : isBlank c with
    | false => simp [dropIndent_eq_drop, leadingBlanks_cons_solid blank]
    | true =>
      cases count with
      | zero => rw [dropIndent_zero, Nat.sub_zero]
      | succ count => rw [dropIndent_cons_blank blank, ih, leadingBlanks_cons_blank blank, Nat.succ_sub_succ]

theorem dropIndent_dropIndent (text : Text) (a b : Nat) :
    (text.dropIndent a).dropIndent b = text.dropIndent (a + b) := by
  rw [dropIndent_eq_drop (text.dropIndent a), leadingBlanks_dropIndent, dropIndent_eq_drop text, List.drop_drop,
    dropIndent_eq_drop]
  congr 1
  omega

end Text

/-- A line is read without ever cutting outside of it, backwards, or inside a character, and so is indentation
dropped. A piece can be cut out exactly between boundaries of characters in the right order; reading a line by
such cuts always comes to its content; and indentation goes up to a number of characters, whatever their size,
at once or in two steps. -/
theorem slices_fall_between_characters :
    (∀ (text piece : Text) (start stop : Nat), text.slice? start stop = some piece ↔
      start ≤ stop ∧ stop ≤ text.utf8.length ∧ Text.Boundary text.utf8 start ∧ Text.Boundary text.utf8 stop ∧
        piece.utf8 = (text.utf8.take stop).drop start) ∧
    (∀ raw : Text, Line.readBySlices? raw = some (Line.read raw)) ∧
    (∀ (text : Text) (count : Nat), text.sliceIndent? count = some (text.dropIndent count) ∧
      text.indentSize count = (Text.utf8 (text.take (min count text.leadingBlanks))).length) ∧
    (∀ (text : Text) (a b : Nat), (text.dropIndent a).dropIndent b = text.dropIndent (a + b)) ∧
    (∀ (text : Text) (count : Nat), (text.dropIndent count).leadingBlanks = text.leadingBlanks - count) ∧
    ∀ (text : Text) (more : Nat), (text.dropIndent (text.leadingBlanks + more)).leadingBlanks = 0 := by
  refine ⟨fun text piece start stop => Text.slice?_eq_some_iff, Line.readBySlices?_eq, fun text count => ?_,
    Text.dropIndent_dropIndent, Text.leadingBlanks_dropIndent, fun text more => ?_⟩
  · refine ⟨Text.sliceIndent?_eq text count, ?_⟩
    rw [Text.indentSize, Text.takeWhile_take_eq, Text.length_utf8]
  · rw [Text.leadingBlanks_dropIndent]
    omega

end DocComment
