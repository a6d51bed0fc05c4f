import DocComment.Proofs.InsertedBlanks

/-! How a line is cut. Keyword, colon, name and text of a tag line are the line up to its end marker, in
this order and without a gap, and so are the begin marker and its text, and the colon of a continuation
and its text. A keyword or a begin marker never lies across the end marker: it is in front of it, or
behind it and then leaves no text. -/
namespace DocComment

namespace Text

variable {text word rest : Text} {c : Char} {i : Nat}

/-- The leftmost occurrence of a word begins at a position. -/
structure FirstAt (text word : Text) (i : Nat) : Prop where
  occurs : word <+: text.drop i
  leftmost : ∀ j < i, ¬ word <+: text.drop j

theorem indexOf?_eq_some_iff : text.indexOf? word = some i ↔ FirstAt text word i := by
  constructor
  · intro found
    exact ⟨isPrefix_drop_of_indexOf? found, fun j => indexOf?_leftmost found⟩
  · intro first
    cases found : text.indexOf? word with
    | none =>
      have inside := first.occurs.isInfix.trans (List.drop_suffix i text).isInfix
      exact absurd inside (indexOf?_eq_none found)
    | some j =>
      have notAfter : ¬ i < j := fun before => indexOf?_leftmost found before first.occurs
      have notBefore : ¬ j < i := fun after => first.leftmost j after (isPrefix_drop_of_indexOf? found)
      rw [Nat.le_antisymm (Nat.le_of_not_lt notAfter) (Nat.le_of_not_lt notBefore)]

theorem exists_firstAt (inside : word <:+: text) : ∃ i, FirstAt text word i := by
  obtain ⟨i, found⟩ := Option.isSome_iff_exists.mp (indexOf?_isSome_iff.mpr inside)
  exact ⟨i, indexOf?_eq_some_iff.mp found⟩

theorem trimStart_eq_cons_iff (solid : isBlank c = false) :
    trimStart text = c :: rest ↔ ∃ w, (∀ d ∈ w, isBlank d = true) ∧ text = w ++ c :: rest := by
  constructor
  · intro same
    refine ⟨text.takeWhile isBlank, fun d => List.mem_takeWhile_imp, ?_⟩
    rw [← same, trimStart, List.takeWhile_append_dropWhile]
  · rintro ⟨w, blank, rfl⟩
    rw [trimStart_append_of_blank blank]
    exact trimStart_eq_self (by simpa using solid)

end Text

namespace Line

variable {raw text rest behind : Text} {s : Section} {i stop : Nat}

/-- Where the text of a line ends: at its first end marker, or where the line ends. -/
def EndsAt (raw : Text) (e : Nat) : Prop := raw.FirstAt endMarker e ∨ ¬ endMarker <:+: raw ∧ e = raw.length

/-- No keyword occurs in the line. -/
def Untagged (raw : Text) : Prop := ∀ s ∈ Section.tagged, ¬ s.keyword <:+: raw

/-- A keyword that occurs, when none in front of it in the search order does, and where. -/
structure Decides (raw : Text) (s : Section) (i : Nat) : Prop where
  chosen : ∃ before after, Section.tagged = before ++ s :: after ∧ ∀ t ∈ before, ¬ t.keyword <:+: raw
  place : raw.FirstAt s.keyword i

/-- The cut of a line up to its end marker at a keyword that stands behind `front`. Only a custom keyword
can be followed by a colon and a name, which goes on up to a blank. An empty name is none. -/
inductive TagCut (line front : Text) (s : Section) : Option Text → Text → Prop
  | unnamed (text : Text) : line = front ++ (s.keyword ++ text) → (s = .custom → text.head? ≠ some ':') →
      TagCut line front s none text
  | separated (name text : Text) : s = .custom → line = front ++ (s.keyword ++ ':' :: (name ++ text)) →
      name.Solid → (∀ c ∈ text.head?, isBlank c = true) →
      TagCut line front s (if name = [] then none else some name) text

/-- How a line whose text ends at position `e` is read. -/
structure Cut (raw : Text) (e : Nat) (line : Line) : Prop where
  endsBlock : line.endsBlock = true ↔ endMarker <:+: raw
  tag : ¬ Untagged raw → ∃ s i name text, Decides raw s i ∧ line.content = .tag s name text ∧
    (i < e ∧ TagCut (raw.take e) (raw.take i) s name text ∨ e < i ∧ text = [])
  begins : Untagged raw → ((∃ text, line.content = .begins text) ↔ beginMarker <:+: raw)
  beginsText : Untagged raw → ∀ text, line.content = .begins text → ∃ i, raw.FirstAt beginMarker i ∧
    (i < e ∧ raw.take e = raw.take i ++ (beginMarker ++ text) ∨ e < i ∧ text = [])
  blank : Untagged raw → ¬ beginMarker <:+: raw →
    (line.content = .blank ↔ ∃ w behind, (∀ c ∈ w, isBlank c = true) ∧ raw = w ++ (endMarker ++ behind))
  continuation : Untagged raw → ¬ beginMarker <:+: raw → ∀ text,
    (line.content = .continuation text ↔ ∃ w, (∀ c ∈ w, isBlank c = true) ∧ raw.take e = w ++ ':' :: text)
  plain : Untagged raw → ¬ beginMarker <:+: raw → line.content ≠ .blank →
    (∀ text, line.content ≠ .continuation text) → line.content = .plain (raw.take e)

theorem take_length_body (raw : Text) : raw.take (body raw).length = body raw :=
  (List.prefix_iff_eq_take.mp (body_prefix_self raw)).symm

theorem take_body (within : i < (body raw).length) : (body raw).take i = raw.take i := by
  conv_lhs => rw [← take_length_body raw, List.take_take, Nat.min_eq_left (Nat.le_of_lt within)]

theorem endsAt_body (raw : Text) : EndsAt raw (body raw).length := by
  by_cases ends : endMarker <:+: raw
  · obtain ⟨front, behind, noEnd, rfl⟩ := exists_around_end ends
    rw [body_around noEnd]
    exact .inl (Text.indexOf?_eq_some_iff.mp (indexOf?_endMarker noEnd behind))
  · rw [body_eq_self ends]
    exact .inr ⟨ends, rfl⟩

theorem endMarker_not_infix_body (raw : Text) : ¬ endMarker <:+: body raw := by
  by_cases ends : endMarker <:+: raw
  · obtain ⟨front, behind, noEnd, rfl⟩ := exists_around_end ends
    rwa [body_around noEnd]
  · rwa [body_eq_self ends]

/-- A word that shares no end with the end marker lies in front of it or begins behind it. -/
theorem occurs_in_body {word : Text} (nonempty : word ≠ []) (noClose : ')' ∉ word)
    (noColon : word.getLast? ≠ some ':') (occurs : word <+: raw.drop i) :
    i < (body raw).length ∧ word <+: (body raw).drop i ∨ (body raw).length < i := by
  have within : ∀ t : Text, word <+: t.drop i → i < t.length := by
    intro t starts
    have size := starts.length_le
    have positive := List.length_pos_iff.mpr nonempty
    rw [List.length_drop] at size
    omega
  by_cases ends : endMarker <:+: raw
  · obtain ⟨front, behind, noEnd, rfl⟩ := exists_around_end ends
    rw [body_around noEnd]
    by_cases behindEnd : front.length < i
    · exact .inr behindEnd
    · have here : i ≤ front.length := Nat.le_of_not_lt behindEnd
      have parts : (front ++ (endMarker ++ behind)).drop i = front.drop i ++ [':'] ++ ')' :: behind := by
        rw [List.drop_append_of_le_length here, List.append_assoc]
        rfl
      rw [parts, Text.prefix_append_cons_iff noClose, List.prefix_concat_iff] at occurs
      have inFront : word <+: front.drop i := by
        refine occurs.resolve_left ?_
        rintro rfl
        exact noColon List.getLast?_concat
      exact .inl ⟨within front inFront, inFront⟩
  · rw [body_eq_self ends]
    exact .inl ⟨within raw occurs, occurs⟩

theorem keyword_in_body (s : Section) (occurs : s.keyword <+: raw.drop i) :
    i < (body raw).length ∧ s.keyword <+: (body raw).drop i ∨ (body raw).length < i := by
  have noClose : ')' ∉ s.keyword := by cases s <;> decide
  refine occurs_in_body s.keyword_ne_nil noClose ?_ occurs
  exact fun last => s.colon_not_mem_keyword (List.mem_of_getLast? last)

theorem untagged_iff : Untagged raw ↔ findKeyword? raw = none := findKeyword?_eq_none_iff.symm

theorem decides_of_findKeyword? (found : findKeyword? raw = some (s, stop)) :
    ∃ i, Decides raw s i ∧ stop = i + s.keyword.length := by
  obtain ⟨before, t, after, parts, here, absent⟩ := List.findSome?_eq_some_iff.mp found
  obtain ⟨i, place, same⟩ := Option.map_eq_some_iff.mp here
  cases same
  refine ⟨i, ⟨⟨before, _, parts, fun u member => ?_⟩, Text.indexOf?_eq_some_iff.mp place⟩, rfl⟩
  exact Text.indexOf?_eq_none_iff.mp (Option.map_eq_none_iff.mp (absent u member))

/-- Where no end marker cuts a name short, it goes on up to a blank. -/
theorem exists_leadingName_rest (noEnd : ¬ endMarker <:+: text) :
    ∃ rest, text = leadingName text ++ rest ∧ ∀ c ∈ rest.head?, isBlank c = true := by
  fun_induction leadingName text with
  | case1 => exact ⟨[], rfl, by simp⟩
  | case2 rest => exact absurd (List.prefix_append endMarker rest).isInfix noEnd
  | case3 c cs _ blank =>
    refine ⟨c :: cs, rfl, ?_⟩
    rintro d ⟨⟩
    exact blank
  | case4 c cs _ solid ih =>
    obtain ⟨rest, same, blank⟩ := ih fun inside => noEnd (inside.trans (List.suffix_cons c cs).isInfix)
    exact ⟨rest, congrArg (c :: ·) same, blank⟩

theorem separatedName?_cases (noEnd : ¬ endMarker <:+: rest) :
    separatedName? rest = none ∧ rest.head? ≠ some ':' ∨
      ∃ name text, separatedName? rest = some name ∧ rest = ':' :: (name ++ text) ∧ name.Solid ∧
        ∀ c ∈ text.head?, isBlank c = true := by
  fun_cases separatedName? rest with
  | case1 behind => exact absurd (List.prefix_append endMarker behind).isInfix noEnd
  | case2 behind _ =>
    obtain ⟨text, same, blank⟩ :=
      exists_leadingName_rest fun inside => noEnd (inside.trans (List.suffix_cons ':' behind).isInfix)
    refine .inr ⟨leadingName behind, text, rfl, congrArg (':' :: ·) same, fun c member => ?_, blank⟩
    exact (mem_leadingName member).1
  | case3 _ _ other =>
    refine .inl ⟨rfl, fun colon => ?_⟩
    obtain ⟨tail, same⟩ := List.head?_eq_some_iff.mp colon
    exact other tail same

/-- What stands behind the end marker is no part of a name in front of it. -/
theorem tagName?_eq (parts : body raw = text ++ rest) :
    tagName? raw s text.length = if s = .custom then separatedName? rest else none := by
  have same : separatedName? (raw.drop text.length) = separatedName? rest := by
    by_cases ends : endMarker <:+: raw
    · obtain ⟨front, behind, noEnd, rfl⟩ := exists_around_end ends
      rw [body_around noEnd] at parts
      rw [parts, List.append_assoc, List.drop_left, separatedName?_append_end]
    · rw [body_eq_self ends] at parts
      rw [parts, List.drop_left]
  rw [tagName?, same]

/-- In front of the end marker a line is cut at its keyword. -/
theorem tagCut_body (within : i < (body raw).length) (occurs : s.keyword <+: (body raw).drop i) :
    TagCut (body raw) (raw.take i) s ((tagName? raw s (i + s.keyword.length)).filter (· ≠ []))
      ((body raw).drop (tagEnd raw s (i + s.keyword.length))) := by
  obtain ⟨rest, behind⟩ := occurs
  have start := (take_body within).symm
  have whole : body raw = raw.take i ++ (s.keyword ++ rest) := by
    rw [behind, start, List.take_append_drop]
  have parts : body raw = raw.take i ++ s.keyword ++ rest := by
    rw [List.append_assoc]
    exact whole
  have size : i + s.keyword.length = (raw.take i ++ s.keyword).length := by
    rw [List.length_append, start, List.length_take, Nat.min_eq_left (Nat.le_of_lt within)]
  have noEnd : ¬ endMarker <:+: rest := by
    intro inside
    refine endMarker_not_infix_body raw ?_
    rw [parts]
    exact inside.trans (List.suffix_append _ rest).isInfix
  rw [tagEnd, size, tagName?_eq parts]
  by_cases custom : s = .custom
  · rw [if_pos custom]
    rcases separatedName?_cases noEnd with ⟨unnamed, other⟩ | ⟨name, text, named, colon, solid, blank⟩
    · rw [unnamed]
      dsimp only
      rw [parts, List.drop_left, ← parts]
      exact .unnamed rest whole fun _ => other
    · have shown : (some name).filter (· ≠ []) = if name = [] then none else some name := by
        by_cases empty : name = [] <;> simp [Option.filter, empty]
      have behindName : (body raw).drop ((raw.take i ++ s.keyword).length + 1 + name.length) = text := by
        rw [parts, colon, Nat.add_assoc, List.drop_length_add_append, Nat.add_comm, List.drop_succ_cons, List.drop_left]
      rw [named, shown]
      dsimp only
      rw [behindName]
      exact .separated name text custom (by rw [whole, colon]) solid blank
  · rw [if_neg custom]
    dsimp only
    rw [parts, List.drop_left, ← parts]
    exact .unnamed rest whole fun own => absurd own custom

theorem untaggedContent_eq_blank_iff :
    untaggedContent raw = .blank ↔
      ∃ w behind, (∀ c ∈ w, isBlank c = true) ∧ raw = w ++ (endMarker ++ behind) := by
  constructor
  · intro blank
    rw [untaggedContent] at blank
    split at blank
    · cases blank
    · next behind starts noColon =>
      have ends : endMarker <:+: raw := by
        by_contra unclosed
        rw [body_eq_self unclosed] at noColon
        exact noColon _ starts
      obtain ⟨front, rest, noEnd, rfl⟩ := exists_around_end ends
      rw [body_around noEnd] at noColon
      refine ⟨front, rest, ?_, rfl⟩
      -- The first character that is no blank is the colon, so it cannot be one of `front`.
      by_contra solid
      have nonempty : Text.trimStart front ≠ [] := by
        rwa [Text.trimStart, ne_eq, List.dropWhile_eq_nil_iff]
      obtain ⟨c, cs, first⟩ := List.exists_cons_of_ne_nil nonempty
      rw [Text.trimStart, List.dropWhile_append, ← Text.trimStart, first] at starts
      cases starts
      exact noColon cs first
    · cases blank
  · rintro ⟨w, behind, blank, rfl⟩
    have noEnd : ¬ endMarker <:+: w := by
      rw [← List.append_nil w, Text.infix_blanks_append_iff endMarker_solid endMarker_ne_nil blank]
      decide
    have nothing : w.trimStart = [] := List.dropWhile_eq_nil_iff.mpr blank
    have marker : (w ++ (endMarker ++ behind)).trimStart = endMarker ++ behind := by
      rw [Text.trimStart_append_of_blank blank]
      rfl
    rw [untaggedContent, body_around noEnd, nothing, marker]
    rfl

theorem untaggedContent_cases (raw : Text) : untaggedContent raw = .blank ∨
    (∃ text, untaggedContent raw = .continuation text) ∨ untaggedContent raw = .plain (body raw) := by
  rw [untaggedContent]
  split
  · exact .inr (.inl ⟨_, rfl⟩)
  · exact .inl rfl
  · exact .inr (.inr rfl)

theorem readContent_of_untagged (untagged : Untagged raw) (noBegin : ¬ beginMarker <:+: raw) :
    readContent raw = untaggedContent raw := by
  rw [readContent, untagged_iff.mp untagged, Text.indexOf?_eq_none_iff.mpr noBegin]

theorem readContent_of_begins (untagged : Untagged raw) (place : raw.FirstAt beginMarker i) :
    readContent raw = .begins ((body raw).drop (i + beginMarker.length)) := by
  rw [readContent, untagged_iff.mp untagged, Text.indexOf?_eq_some_iff.mpr place]

theorem beginMarker_infix_of_begins (untagged : Untagged raw) (content : readContent raw = .begins text) :
    beginMarker <:+: raw := by
  by_contra noBegin
  rw [readContent_of_untagged untagged noBegin] at content
  rcases untaggedContent_cases raw with kind | ⟨other, kind⟩ | kind
  · cases kind.symm.trans content
  · cases kind.symm.trans content
  · cases kind.symm.trans content

/-- What a line without a keyword brings behind a begin marker. -/
theorem begins_cut (place : raw.FirstAt beginMarker i) :
    i < (body raw).length ∧
        body raw = raw.take i ++ (beginMarker ++ (body raw).drop (i + beginMarker.length)) ∨
      (body raw).length < i ∧ (body raw).drop (i + beginMarker.length) = [] := by
  rcases occurs_in_body (by decide) (by decide) (by decide) place.occurs with ⟨within, rest, same⟩ | behind
  · have text : (body raw).drop (i + beginMarker.length) = rest := by
      rw [← List.drop_drop, ← same, List.drop_left]
    rw [text, same, ← take_body within, List.take_append_drop]
    exact .inl ⟨within, rfl⟩
  · exact .inr ⟨behind, List.drop_eq_nil_of_le (by omega)⟩

end Line

/-- Every line is cut exactly: what it is read as accounts for all of it up to its end marker. -/
theorem Line.read_cuts (raw : Text) : ∃ e, EndsAt raw e ∧ Cut raw e (read raw) := by
  refine ⟨(body raw).length, endsAt_body raw, ?_⟩
  have whole := take_length_body raw
  constructor
  · exact endsBlock_iff raw
  · intro tagged
    obtain ⟨⟨s, stop⟩, found⟩ := Option.ne_none_iff_exists'.mp (mt untagged_iff.mpr tagged)
    obtain ⟨i, decides, rfl⟩ := decides_of_findKeyword? found
    have content : readContent raw = tagContent raw s (i + s.keyword.length) := by rw [readContent, found]
    refine ⟨s, i, _, _, decides, content.trans (tagContent_eq raw s _), ?_⟩
    rcases keyword_in_body s decides.place.occurs with ⟨within, occurs⟩ | behind
    · rw [whole]
      exact .inl ⟨within, tagCut_body within occurs⟩
    · have late : (body raw).length ≤ tagEnd raw s (i + s.keyword.length) := by
        rw [tagEnd]
        split <;> omega
      exact .inr ⟨behind, List.drop_eq_nil_of_le late⟩
  · intro untagged
    constructor
    · rintro ⟨text, content⟩
      exact beginMarker_infix_of_begins untagged content
    · intro inside
      obtain ⟨i, place⟩ := Text.exists_firstAt inside
      exact ⟨_, readContent_of_begins untagged place⟩
  · intro untagged text content
    obtain ⟨i, place⟩ := Text.exists_firstAt (beginMarker_infix_of_begins untagged content)
    cases (readContent_of_begins untagged place).symm.trans content
    rw [whole]
    exact ⟨i, place, begins_cut place⟩
  · intro untagged noBegin
    rw [← untaggedContent_eq_blank_iff, ← readContent_of_untagged untagged noBegin]
    exact Iff.rfl
  · intro untagged noBegin text
    rw [whole, ← Text.trimStart_eq_cons_iff (by decide), ← untaggedContent_eq_continuation_iff,
      ← readContent_of_untagged untagged noBegin]
    exact Iff.rfl
  · intro untagged noBegin notBlank noColon
    have content := readContent_of_untagged untagged noBegin
    rw [whole]
    rcases untaggedContent_cases raw with kind | ⟨text, kind⟩ | kind
    · exact absurd (content.trans kind) notBlank
    · exact absurd (content.trans kind) (noColon text)
    · exact content.trans kind

end DocComment
