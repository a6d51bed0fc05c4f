import DocComment.Proofs.EndMarker

/-! Blanks in front of the text of a line. No marker and no keyword holds a blank, so blanks at the place
where the text of a line begins create none and, since none lies across that place, destroy none. The
line is read as before, with the blanks in front of its text, unless the end marker hides the text. -/
namespace DocComment

variable {w front rest text word raw : Text}

namespace Text

theorem infix_blanks_append_iff (solid : word.Solid) (nonempty : word ≠ []) (blank : ∀ c ∈ w, isBlank c = true) :
    word <:+: w ++ rest ↔ word <:+: rest := by
  induction w with
  | nil => rfl
  | cons c w ih =>
    have absent : c ∉ word := fun inside =>
      Bool.false_ne_true ((solid c inside).symm.trans (blank c List.mem_cons_self))
    have later := ih fun d member => blank d (List.mem_cons_of_mem c member)
    rw [← later]
    exact (infix_append_cons_iff (s := []) absent nonempty).trans
      (or_iff_right fun inside => nonempty (List.infix_nil.mp inside))

/-- No occurrence reaches over blanks. -/
theorem infix_insert_iff (solid : word.Solid) (nonempty : word ≠ []) (blank : ∀ c ∈ w, isBlank c = true)
    (gap : w ≠ []) : word <:+: front ++ (w ++ rest) ↔ word <:+: front ∨ word <:+: rest := by
  obtain ⟨c, w, rfl⟩ := List.exists_cons_of_ne_nil gap
  obtain ⟨first, later⟩ := List.forall_mem_cons.mp blank
  have absent : c ∉ word := fun inside => Bool.false_ne_true ((solid c inside).symm.trans first)
  rw [List.cons_append, infix_append_cons_iff absent nonempty, infix_blanks_append_iff solid nonempty later]

theorem infix_of_infix_insert (solid : word.Solid) (nonempty : word ≠ []) (blank : ∀ c ∈ w, isBlank c = true)
    (inside : word <:+: front ++ (w ++ rest)) : word <:+: front ++ rest := by
  by_cases empty : w = []
  · rwa [empty] at inside
  · rcases (infix_insert_iff solid nonempty blank empty).mp inside with before | behind
    · exact before.trans (List.prefix_append front rest).isInfix
    · exact behind.trans (List.suffix_append front rest).isInfix

end Text

theorem endMarker_solid : endMarker.Solid := by decide

theorem beginMarker_solid : beginMarker.Solid := by decide

namespace Line

variable {s : Section} {stop : Nat} {name : Text}

theorem body_eq_self_iff : body text = text ↔ ¬ endMarker <:+: text := by
  refine ⟨fun same ends => ?_, body_eq_self⟩
  obtain ⟨before, behind, noEnd, rfl⟩ := exists_around_end ends
  rw [body_around noEnd] at same
  have size := congrArg List.length same
  have two : endMarker.length = 2 := rfl
  simp only [List.length_append] at size
  omega

theorem body_append_of_inside (inside : endMarker <:+: front) (rest : Text) : body (front ++ rest) = body front := by
  obtain ⟨before, behind, noEnd, rfl⟩ := exists_around_end inside
  rw [List.append_assoc, List.append_assoc, body_around noEnd, body_around noEnd]

theorem body_cons {c : Char} (first : ¬ endMarker <+: c :: text) : body (c :: text) = c :: body text := by
  have absent : endMarker.isPrefixOf (c :: text) = false := by
    rw [Bool.eq_false_iff, ne_eq, List.isPrefixOf_iff_prefix]
    exact first
  rw [body, body, Text.indexOf?, absent]
  cases text.indexOf? endMarker <;> rfl

/-- Without an end marker up to its first character, the second part is cut off as if it stood alone. -/
theorem body_append_of_open (noEnd : ¬ endMarker <:+: front ++ rest.take 1) :
    body (front ++ rest) = front ++ body rest := by
  induction front with
  | nil => rfl
  | cons c front ih =>
    rw [List.cons_append, List.infix_cons_iff, not_or] at noEnd
    have first : ¬ endMarker <+: c :: (front ++ rest) := by
      intro starts
      cases rest with
      | nil => exact noEnd.1 starts
      | cons d rest =>
        have short : c :: (front ++ [d]) <+: c :: (front ++ d :: rest) := ⟨rest, by simp⟩
        refine noEnd.1 (List.prefix_of_prefix_length_le starts short ?_)
        rw [List.length_cons, List.length_append]
        exact Nat.succ_le_succ (Nat.le_add_left 1 front.length)
    rw [List.cons_append, body_cons first, ih noEnd.2, List.cons_append]

/-- No end marker lies across the place where two parts meet. -/
def Apart (front rest : Text) : Prop := endMarker <:+: front ++ rest.take 1 → endMarker <:+: front

theorem body_insert (apart : Apart front rest) (unclosed : ¬ endMarker <:+: front) (blank : ∀ c ∈ w, isBlank c = true) :
    body (front ++ (w ++ rest)) = front ++ (w ++ body rest) := by
  cases w with
  | nil => exact body_append_of_open (mt apart unclosed)
  | cons c w =>
    have outer : ¬ endMarker <:+: front ++ (c :: w ++ rest).take 1 := by
      have parts : endMarker <:+: front ++ ([c] ++ []) ↔ endMarker <:+: front ∨ endMarker <:+: [] :=
        Text.infix_insert_iff endMarker_solid endMarker_ne_nil
          (List.forall_mem_singleton.mpr (blank c List.mem_cons_self)) (List.cons_ne_nil c [])
      rw [List.append_nil] at parts
      rw [List.cons_append, List.take_one, List.head?_cons, Option.toList_some, parts]
      exact not_or.mpr ⟨unclosed, by decide⟩
    have inner : ¬ endMarker <:+: c :: w ++ rest.take 1 := by
      rw [Text.infix_blanks_append_iff endMarker_solid endMarker_ne_nil blank]
      intro inside
      have size := inside.length_le.trans (List.length_take_le 1 rest)
      exact absurd size (by decide)
    rw [body_append_of_open outer, body_append_of_open inner]

/-- Blanks come in front of what is left of the text, unless the end marker hides all of it. -/
theorem drop_body_insert (apart : Apart front rest) (blank : ∀ c ∈ w, isBlank c = true) :
    (body (front ++ (w ++ rest))).drop front.length = w ++ (body (front ++ rest)).drop front.length ∨
      endMarker <:+: front ∧ (body (front ++ rest)).drop front.length = [] ∧
        (body (front ++ (w ++ rest))).drop front.length = [] := by
  by_cases inside : endMarker <:+: front
  · have hidden : ∀ rest, (body (front ++ rest)).drop front.length = [] := fun rest => by
      rw [body_append_of_inside inside]
      exact List.drop_eq_nil_of_le (body_prefix_self front).length_le
    exact .inr ⟨inside, hidden rest, hidden (w ++ rest)⟩
  · have without := body_insert apart inside (w := []) nofun
    rw [List.nil_append, List.nil_append] at without
    rw [body_insert apart inside blank, without, List.drop_left, List.drop_left]
    exact .inl rfl

theorem endMarker_infix_insert_iff (apart : Apart front rest) (blank : ∀ c ∈ w, isBlank c = true) :
    endMarker <:+: front ++ (w ++ rest) ↔ endMarker <:+: front ++ rest := by
  by_cases inside : endMarker <:+: front
  · have ends : ∀ rest, endMarker <:+: front ++ rest := fun rest =>
      inside.trans (List.prefix_append front rest).isInfix
    exact iff_of_true (ends _) (ends _)
  · have cut : ∀ {w}, (∀ c ∈ w, isBlank c = true) →
        (endMarker <:+: front ++ (w ++ rest) ↔ ¬ body rest = rest) := by
      intro w blank
      rw [← not_iff_not, not_not, ← body_eq_self_iff, body_insert apart inside blank,
        List.append_cancel_left_eq, List.append_cancel_left_eq]
    exact (cut blank).trans (cut (w := []) nofun).symm

theorem apart_of (unclosed : front.getLast? = some ':' → rest.head? ≠ some ')') : Apart front rest := by
  intro ends
  cases rest with
  | nil => rwa [List.take_nil, List.append_nil] at ends
  | cons d rest =>
    rw [List.take_one, List.head?_cons, Option.toList_some, List.infix_concat_iff] at ends
    refine ends.resolve_left ?_
    rintro ⟨before, same⟩
    have parts : before ++ [':'] ++ [')'] = front ++ [d] := (List.append_assoc _ _ _).trans same
    obtain ⟨rfl, closes⟩ := List.append_inj' parts rfl
    cases closes
    exact unclosed List.getLast?_concat rfl

theorem findKeyword?_insert (found : findKeyword? (front ++ rest) = some (s, stop)) (within : stop ≤ front.length)
    (blank : ∀ c ∈ w, isBlank c = true) : findKeyword? (front ++ (w ++ rest)) = some (s, stop) := by
  obtain ⟨before, t, after, split, here, absent⟩ := List.findSome?_eq_some_iff.mp found
  refine List.findSome?_eq_some_iff.mpr ⟨before, t, after, split, ?_, fun u member => ?_⟩
  · obtain ⟨i, place, same⟩ := Option.map_eq_some_iff.mp here
    cases same
    rw [(Text.indexOf?_append_of_fits within _).mpr ((Text.indexOf?_append_of_fits within _).mp place)]
    rfl
  · have missing := Text.indexOf?_eq_none_iff.mp (Option.map_eq_none_iff.mp (absent u member))
    rw [Option.map_eq_none_iff, Text.indexOf?_eq_none_iff]
    exact mt (Text.infix_of_infix_insert u.keyword_solid u.keyword_ne_nil blank) missing

theorem findKeyword?_insert_none (absent : findKeyword? (front ++ rest) = none)
    (blank : ∀ c ∈ w, isBlank c = true) : findKeyword? (front ++ (w ++ rest)) = none := by
  rw [findKeyword?_eq_none_iff] at absent ⊢
  exact fun t member => mt (Text.infix_of_infix_insert t.keyword_solid t.keyword_ne_nil blank) (absent t member)

/-- The name behind a keyword that ends at position `stop`, also an empty one. -/
def tagName? (raw : Text) (s : Section) (stop : Nat) : Option Text :=
  if s = .custom then separatedName? (raw.drop stop) else none

/-- Where the name behind a keyword ends, or else the keyword. -/
def tagEnd (raw : Text) (s : Section) (stop : Nat) : Nat :=
  match tagName? raw s stop with
  | some name => stop + 1 + name.length
  | none => stop

theorem tagContent_eq (raw : Text) (s : Section) (stop : Nat) : tagContent raw s stop =
    .tag s ((tagName? raw s stop).filter (· ≠ [])) ((body raw).drop (tagEnd raw s stop)) := by
  rw [tagContent, tagEnd, ← tagName?]
  cases tagName? raw s stop with
  | none => rfl
  | some name => by_cases empty : name = [] <;> simp [Option.filter, empty]

theorem not_infix_cons {c : Char} {cs : Text} (apart : ∀ tail, c = ':' → cs = ')' :: tail → False)
    (starts : front <+: cs) (noEnd : ¬ endMarker <:+: front) : ¬ endMarker <:+: c :: front := by
  rw [List.infix_cons_iff, not_or]
  refine ⟨fun first => ?_, noEnd⟩
  obtain ⟨rfl, closes⟩ := List.cons_prefix_cons.mp first
  obtain ⟨tail, same⟩ := closes.trans starts
  exact apart tail rfl same.symm

/-- A name reaches up to the end of the text, to a blank, or to an end marker. -/
theorem exists_leadingName_parts (text : Text) : ∃ rest, text = leadingName text ++ rest ∧
    ¬ endMarker <:+: leadingName text ++ rest.take 1 := by
  have short : ∀ c : Char, ¬ endMarker <:+: [c] := fun c inside => Nat.not_succ_le_self 1 inside.length_le
  fun_induction leadingName text with
  | case1 => exact ⟨[], rfl, by decide⟩
  | case2 rest => exact ⟨_, rfl, short ':'⟩
  | case3 c cs apart blank => exact ⟨_, rfl, short c⟩
  | case4 c cs apart solid ih =>
    obtain ⟨rest, same, noEnd⟩ := ih
    have within : leadingName cs ++ rest.take 1 <+: cs :=
      ⟨rest.drop 1, by rw [List.append_assoc, List.take_append_drop, ← same]⟩
    exact ⟨rest, congrArg (c :: ·) same, not_infix_cons apart within noEnd⟩

/-- Blanks can follow a name that is read behind a keyword. -/
theorem exists_name_parts (found : separatedName? text = some name) : ∃ rest, text = ':' :: name ++ rest ∧
    ¬ endMarker <:+: ':' :: name ++ rest.take 1 ∧
    ∀ w, (∀ c ∈ w, isBlank c = true) → separatedName? (':' :: name ++ (w ++ rest)) = some name := by
  have solid := separatedName?_solid found
  unfold separatedName? at found
  split at found
  · cases found
  · next behind apart =>
    cases found
    obtain ⟨rest, same, noEnd⟩ := exists_leadingName_parts behind
    have within : leadingName behind ++ rest.take 1 <+: behind :=
      ⟨rest.drop 1, by rw [List.append_assoc, List.take_append_drop, ← same]⟩
    refine ⟨rest, congrArg (':' :: ·) same, not_infix_cons (fun tail _ => apart tail) within noEnd, ?_⟩
    intro w blank
    cases w with
    | nil => rw [List.nil_append, List.cons_append, ← same, separatedName?.eq_2 behind apart]
    | cons c w =>
      have first := blank c List.mem_cons_self
      have alone := fun inside : endMarker <:+: leadingName behind =>
        noEnd (inside.trans (List.prefix_append _ _).isInfix)
      have read := leadingName_append first solid alone (w ++ rest)
      rw [List.cons_append, List.cons_append, separatedName?.eq_2, read]
      intro tail closes
      cases named : leadingName behind with
      | nil =>
        rw [named] at closes
        cases closes
        exact absurd first (by decide)
      | cons d ds =>
        rw [named] at closes same
        cases closes
        exact apart _ same
  · cases found

theorem separatedName?_blanks (absent : separatedName? text = none) (blank : ∀ c ∈ w, isBlank c = true) :
    separatedName? (w ++ text) = none := by
  cases w with
  | nil => exact absent
  | cons c w =>
    have other : ∀ {s t : Text}, c :: s = ':' :: t → False := by
      intro s t same
      cases same
      exact absurd (blank ':' List.mem_cons_self) (by decide)
    exact separatedName?.eq_3 _ (fun tail => other) fun tail => other

/-- A keyword and the name behind it are the end of a part that blanks can follow. -/
theorem exists_tag_parts (found : findKeyword? raw = some (s, stop)) : ∃ front rest, raw = front ++ rest ∧
    front.length = tagEnd raw s stop ∧ stop ≤ front.length ∧ Apart front rest ∧
    ∀ w, (∀ c ∈ w, isBlank c = true) → tagName? (front ++ (w ++ rest)) s stop = tagName? raw s stop := by
  obtain ⟨head, behind, rfl, rfl, noColon⟩ : ∃ head behind, raw = head ++ behind ∧ stop = head.length ∧
      head.getLast? ≠ some ':' := by
    obtain ⟨_, i, place, rfl⟩ := findKeyword?_spec found
    obtain ⟨before, behind, rfl, rfl⟩ := Text.exists_parts_of_indexOf? s.keyword_ne_nil place
    refine ⟨before ++ s.keyword, behind, rfl, List.length_append.symm, fun colon => ?_⟩
    rw [List.getLast?_append_of_ne_nil _ s.keyword_ne_nil] at colon
    exact s.colon_not_mem_keyword (List.mem_of_getLast? colon)
  cases named : tagName? (head ++ behind) s head.length with
  | none =>
    refine ⟨head, behind, rfl, by rw [tagEnd, named], Nat.le_refl _, apart_of fun colon => absurd colon noColon, ?_⟩
    intro w blank
    rw [tagName?, List.drop_left] at named ⊢
    by_cases custom : s = .custom
    · rw [if_pos custom] at named ⊢
      exact separatedName?_blanks named blank
    · exact if_neg custom
  | some name =>
    have whole := named
    rw [tagName?, List.drop_left] at named
    split at named
    · next custom =>
      obtain ⟨rest, rfl, noEnd, again⟩ := exists_name_parts named
      refine ⟨head ++ ':' :: name, rest, (List.append_assoc _ _ _).symm, ?_, ?_,
        apart_of fun colon closes => noEnd ?_, ?_⟩
      · rw [tagEnd, whole, List.length_append, List.length_cons]
        dsimp only
        omega
      · exact (List.prefix_append head _).length_le
      · rw [List.getLast?_append_of_ne_nil _ (List.cons_ne_nil _ _)] at colon
        obtain ⟨before, same⟩ := List.getLast?_eq_some_iff.mp colon
        rw [same, List.take_one, closes, List.append_assoc]
        exact (List.suffix_append before _).isInfix
      · intro w blank
        rw [tagName?, List.append_assoc, List.drop_left, if_pos custom]
        exact again w blank
    · cases named

/-- Where the text of a line begins. A blank line and a plain one have no such place. -/
def textStart? (raw : Text) : Option Nat :=
  match findKeyword? raw with
  | some (s, stop) => some (tagEnd raw s stop)
  | none =>
    match raw.indexOf? beginMarker with
    | some i => some (i + beginMarker.length)
    | none =>
      match untaggedContent raw with
      | .continuation _ => some (raw.leadingBlanks + 1)
      | _ => none

/-- Inserts blanks right in front of the text of a line. -/
def indent (w raw : Text) : Text :=
  match textStart? raw with
  | some i => raw.take i ++ w ++ raw.drop i
  | none => raw

namespace Content

/-- The same with another text, for lines whose text has a place of its own. -/
def withText (text : Text) : Content → Content
  | .tag s name _ => .tag s name text
  | .begins _ => .begins text
  | .continuation _ => .continuation text
  | content => content

def indented (w : Text) (content : Content) : Content := content.withText (w ++ content.text)

end Content

theorem untaggedContent_eq_continuation_iff :
    untaggedContent raw = .continuation text ↔ (body raw).trimStart = ':' :: text := by
  rw [untaggedContent]
  split
  · next behind colon => rw [colon, Content.continuation.injEq, List.cons.injEq, and_iff_right rfl]
  · next other => exact iff_of_false (by simp) (other text)
  · next other _ => exact iff_of_false (by simp) (other text)

/-- The text of a continuation begins behind its colon. -/
theorem exists_continuation_parts (colon : (body raw).trimStart = ':' :: text) :
    ∃ front rest, raw = front ++ rest ∧ front.length = raw.leadingBlanks + 1 ∧ Apart front rest ∧
      ∀ w, (∀ c ∈ w, isBlank c = true) →
        (body (front ++ (w ++ rest))).trimStart = ':' :: (body (front ++ (w ++ rest))).drop front.length := by
  obtain ⟨blanks, cut, blank, same, rfl⟩ : ∃ blanks cut, (∀ c ∈ blanks, isBlank c = true) ∧
      body raw = blanks ++ ':' :: text ∧ raw = blanks ++ ':' :: text ++ cut := by
    obtain ⟨cut, whole⟩ := body_prefix_self raw
    have parts : body raw = (body raw).takeWhile isBlank ++ ':' :: text := by
      rw [← colon, Text.trimStart, List.takeWhile_append_dropWhile]
    exact ⟨_, cut, fun c => List.mem_takeWhile_imp, parts, parts ▸ whole.symm⟩
  have noEnd : ¬ endMarker <:+: blanks ++ [':'] := by
    rw [Text.infix_blanks_append_iff endMarker_solid endMarker_ne_nil blank]
    decide
  have apart : Apart (blanks ++ [':']) (text ++ cut) := by
    refine apart_of fun _ closes => ?_
    obtain ⟨tail, rest⟩ := List.head?_eq_some_iff.mp closes
    have whole : blanks ++ ':' :: text ++ cut = blanks ++ (endMarker ++ tail) := by
      rw [List.append_assoc, List.cons_append, rest]
      rfl
    rw [whole, body_around fun inside => noEnd (inside.trans (List.prefix_append _ _).isInfix)] at same
    simp at same
  refine ⟨blanks ++ [':'], text ++ cut, by simp, ?_, apart, fun w blank' => ?_⟩
  · rw [List.append_assoc, Text.leadingBlanks_append blank, List.cons_append,
      Text.leadingBlanks_cons_solid (by decide), List.length_append]
    rfl
  · rw [body_insert apart noEnd blank', List.drop_left, List.append_assoc, Text.trimStart_append_of_blank blank]
    rfl

/-- A line falls into two parts where its text begins, and with blanks between them it is read as before,
but for its text. -/
theorem exists_seam {i : Nat} (start : textStart? raw = some i) : ∃ front rest, raw = front ++ rest ∧
    front.length = i ∧ Apart front rest ∧ ∀ w, (∀ c ∈ w, isBlank c = true) →
      readContent (front ++ (w ++ rest)) =
        (readContent raw).withText ((body (front ++ (w ++ rest))).drop i) := by
  rw [textStart?] at start
  cases keyword : findKeyword? raw with
  | some found =>
    obtain ⟨s, stop⟩ := found
    rw [keyword] at start
    cases start
    obtain ⟨front, rest, parts, size, within, apart, named⟩ := exists_tag_parts keyword
    refine ⟨front, rest, parts, size, apart, fun w blank => ?_⟩
    have keyword' := findKeyword?_insert (parts ▸ keyword) within blank
    rw [readContent, keyword', readContent, keyword]
    dsimp only
    rw [tagContent_eq, tagContent_eq, tagEnd, tagEnd, named w blank]
    rfl
  | none =>
    rw [keyword] at start
    cases marker : raw.indexOf? beginMarker with
    | some j =>
      rw [marker] at start
      cases start
      obtain ⟨before, rest, rfl, rfl⟩ := Text.exists_parts_of_indexOf? (by decide) marker
      have fits : before.length + beginMarker.length ≤ (before ++ beginMarker).length :=
        Nat.le_of_eq List.length_append.symm
      have apart : Apart (before ++ beginMarker) rest := by
        refine apart_of fun colon => ?_
        rw [List.getLast?_append_of_ne_nil _ (by decide)] at colon
        exact absurd colon (by decide)
      refine ⟨before ++ beginMarker, rest, rfl, List.length_append, apart, fun w blank => ?_⟩
      have marker' := (Text.indexOf?_append_of_fits fits (w ++ rest)).mpr
        ((Text.indexOf?_append_of_fits fits rest).mp marker)
      rw [readContent, findKeyword?_insert_none keyword blank, marker', readContent, keyword, marker]
      rfl
    | none =>
      rw [marker] at start
      cases content : untaggedContent raw with
      | continuation text =>
        rw [content] at start
        cases start
        obtain ⟨front, rest, rfl, size, apart, colon⟩ :=
          exists_continuation_parts (untaggedContent_eq_continuation_iff.mp content)
        refine ⟨front, rest, rfl, size, apart, fun w blank => ?_⟩
        have marker' : (front ++ (w ++ rest)).indexOf? beginMarker = none := by
          rw [Text.indexOf?_eq_none_iff] at marker ⊢
          exact mt (Text.infix_of_infix_insert beginMarker_solid (by decide) blank) marker
        rw [readContent, findKeyword?_insert_none keyword blank, marker', readContent, keyword, marker]
        dsimp only
        rw [content, untaggedContent_eq_continuation_iff.mpr (colon w blank), size]
        rfl
      | tag | begins | plain | blank =>
        rw [content] at start
        cases start

/-- Only blank and plain lines have no place for their text. -/
theorem textStart?_eq_none_iff :
    textStart? raw = none ↔ readContent raw = .blank ∨ ∃ text, readContent raw = .plain text := by
  rw [textStart?, readContent]
  cases findKeyword? raw with
  | some found =>
    dsimp only
    rw [tagContent_eq]
    simp
  | none =>
    cases raw.indexOf? beginMarker with
    | some i => simp
    | none =>
      have kinds : (∃ text, untaggedContent raw = .continuation text) ∨ untaggedContent raw = .blank ∨
          ∃ text, untaggedContent raw = .plain text := by
        rw [untaggedContent]
        split
        · exact .inl ⟨_, rfl⟩
        · exact .inr (.inl rfl)
        · exact .inr (.inr ⟨_, rfl⟩)
      rcases kinds with ⟨text, kind⟩ | kind | ⟨text, kind⟩ <;> simp [kind]

/-- What a line contributes is what stands from there on, up to the end marker. -/
theorem text_eq_drop_body {i : Nat} (start : textStart? raw = some i) : (readContent raw).text = (body raw).drop i := by
  have present : ¬ (readContent raw = .blank ∨ ∃ text, readContent raw = .plain text) := by
    rw [← textStart?_eq_none_iff, start]
    exact nofun
  obtain ⟨front, rest, rfl, _, _, reads⟩ := exists_seam start
  have own := reads [] nofun
  rw [List.nil_append] at own
  cases content : readContent (front ++ rest) with
  | tag s name text | begins text | continuation text =>
    rw [content] at own
    exact congrArg Content.text own
  | plain text => exact absurd (.inr ⟨text, content⟩) present
  | blank => exact absurd (.inl content) present

/-- Blanks go right in front of what a line contributes, and a line without a place for them stays as it is. -/
theorem indent_at_text (w raw : Text) : match textStart? raw with
    | some i => indent w raw = raw.take i ++ w ++ raw.drop i ∧ (readContent raw).text = (body raw).drop i
    | none => indent w raw = raw ∧ (readContent raw = .blank ∨ ∃ text, readContent raw = .plain text) := by
  rw [indent]
  cases start : textStart? raw with
  | some i => exact ⟨rfl, text_eq_drop_body start⟩
  | none => exact ⟨rfl, textStart?_eq_none_iff.mp start⟩

theorem withText_append_text {content : Content} (own : content.withText text = content) (w : Text) :
    content.withText (w ++ text) = content.indented w := by
  cases content with
  | tag s name old =>
    cases own
    rfl
  | begins old | continuation old =>
    cases own
    rfl
  | plain old | blank => rfl

theorem indent_eq {i : Nat} (start : textStart? (front ++ rest) = some i) (size : front.length = i) (w : Text) :
    indent w (front ++ rest) = front ++ (w ++ rest) := by
  subst size
  rw [indent, start]
  dsimp only
  rw [List.take_left, List.drop_left, List.append_assoc]

theorem endMarker_infix_indent_iff (blank : ∀ c ∈ w, isBlank c = true) (raw : Text) :
    endMarker <:+: indent w raw ↔ endMarker <:+: raw := by
  cases start : textStart? raw with
  | none => rw [indent, start]
  | some i =>
    obtain ⟨front, rest, rfl, size, apart, _⟩ := exists_seam start
    rw [indent_eq start size]
    exact endMarker_infix_insert_iff apart blank

/-- A line with blanks in front of its text is read as before, with the blanks in front of its text. Only
where the end marker hides the text it is read as if nothing had changed. -/
theorem readContent_indent (blank : ∀ c ∈ w, isBlank c = true) (raw : Text) :
    readContent (indent w raw) = (readContent raw).indented w ∨
      endMarker <:+: raw ∧ (readContent raw).withText [] = readContent raw ∧
        readContent (indent w raw) = readContent raw := by
  cases start : textStart? raw with
  | none =>
    rw [indent, start]
    rcases textStart?_eq_none_iff.mp start with content | ⟨text, content⟩
    · exact .inl (by rw [content]; rfl)
    · exact .inl (by rw [content]; rfl)
  | some i =>
    obtain ⟨front, rest, rfl, rfl, apart, reads⟩ := exists_seam start
    have own := reads [] nofun
    rw [List.nil_append] at own
    rw [indent_eq start rfl, reads w blank]
    rcases drop_body_insert apart blank with behind | ⟨ends, hidden, hidden'⟩
    · rw [behind]
      exact .inl (withText_append_text own.symm w)
    · rw [hidden] at own
      rw [hidden']
      exact .inr ⟨ends.trans (List.prefix_append front rest).isInfix, own.symm, own.symm⟩

end Line
end DocComment
