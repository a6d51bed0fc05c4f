import DocComment.Proofs.BlockParts
import DocComment.Proofs.DocumentReading
import DocComment.Proofs.LayoutLines

/-! The end of a block. All text is cut off at the first end marker, but the keywords and the begin
marker of the line are looked for in all of it. So what stands behind the end marker can be heard: a
keyword there can open an element, and a begin marker there can hide the text in front of it. Nothing
else behind it counts. -/
namespace DocComment

/-- A text up to and including its first end marker. -/
def throughEnd (text : Text) : Text :=
  match text.indexOf? endMarker with
  | some i => text.take (i + endMarker.length)
  | none => text

variable {text front : Text}

theorem endMarker_visible : ∀ c ∈ endMarker, c ≠ '\r' ∧ c ≠ '\n' := by decide

theorem endMarker_no_feed : ∀ c ∈ endMarker, c ≠ '\n' := fun c member => (endMarker_visible c member).2

theorem endMarker_ne_nil : endMarker ≠ [] := by decide

theorem indexOf?_endMarker (noEnd : ¬ endMarker <:+: front) (behind : Text) :
    (front ++ (endMarker ++ behind)).indexOf? endMarker = some front.length := by
  induction front with
  | nil => rfl
  | cons c cs ih =>
    have later := ih fun inside => noEnd (inside.trans (List.suffix_cons c cs).isInfix)
    have first : endMarker.isPrefixOf (c :: (cs ++ (endMarker ++ behind))) = false := by
      rw [Bool.eq_false_iff, ne_eq, List.isPrefixOf_iff_prefix]
      intro starts
      obtain ⟨rfl, rest⟩ := List.cons_prefix_cons.mp starts
      cases cs with
      | nil => exact absurd (List.cons_prefix_cons.mp rest).1 (by decide)
      | cons d ds =>
        obtain ⟨rfl, _⟩ := List.cons_prefix_cons.mp rest
        exact noEnd (List.prefix_append endMarker ds).isInfix
    rw [List.cons_append, Text.indexOf?, first, later]
    rfl

/-- A text with an end marker falls into what stands in front of the first one and what stands behind. -/
theorem exists_around_end (contains : endMarker <:+: text) :
    ∃ front behind, ¬ endMarker <:+: front ∧ text = front ++ (endMarker ++ behind) := by
  obtain ⟨i, found⟩ := Option.isSome_iff_exists.mp (Text.indexOf?_isSome_iff.mpr contains)
  obtain ⟨front, behind, rfl, rfl⟩ := Text.exists_parts_of_indexOf? endMarker_ne_nil found
  refine ⟨front, behind, ?_, List.append_assoc _ _ _⟩
  rintro ⟨before, after, rfl⟩
  have early : before.length < (before ++ endMarker ++ after).length := by
    have two : endMarker.length = 2 := rfl
    simp only [List.length_append]
    omega
  refine Text.indexOf?_leftmost found early ?_
  simp only [List.append_assoc, List.drop_left]
  exact List.prefix_append _ _

theorem throughEnd_around (noEnd : ¬ endMarker <:+: front) (behind : Text) :
    throughEnd (front ++ (endMarker ++ behind)) = front ++ endMarker := by
  rw [throughEnd, indexOf?_endMarker noEnd]
  dsimp only
  rw [← List.append_assoc, ← List.length_append, List.take_left]

namespace Line

theorem body_around (noEnd : ¬ endMarker <:+: front) (behind : Text) :
    body (front ++ (endMarker ++ behind)) = front := by
  rw [body, indexOf?_endMarker noEnd]
  exact List.take_left

/-- The end marker does not complete one that begins right in front of it. -/
private theorem not_closes {c : Char} {cs behind : Text}
    (apart : ∀ tail, c = ':' → cs = ')' :: tail → False) :
    ∀ tail, c = ':' → cs ++ (endMarker ++ behind) = ')' :: tail → False := by
  intro tail colon closes
  cases cs with
  | nil => exact absurd (List.cons.inj closes).1 (by decide)
  | cons d ds =>
    obtain ⟨rfl, _⟩ := List.cons.inj closes
    exact apart ds colon rfl

/-- A name never reaches the end marker. -/
theorem leadingName_append_end (text behind : Text) :
    leadingName (text ++ (endMarker ++ behind)) = leadingName text := by
  fun_induction leadingName text with
  | case1 => rfl
  | case2 => rfl
  | case3 c cs apart blank =>
    rw [List.cons_append, leadingName.eq_3 c _ (not_closes apart), if_pos blank]
  | case4 c cs apart solid ih =>
    rw [List.cons_append, leadingName.eq_3 c _ (not_closes apart), if_neg solid, ih]

theorem separatedName?_append_end (text behind : Text) :
    separatedName? (text ++ (endMarker ++ behind)) = separatedName? text := by
  fun_cases separatedName? text with
  | case1 => rfl
  | case2 rest apart =>
    have unclosed : ∀ tail, rest ++ (endMarker ++ behind) = ')' :: tail → False := fun tail =>
      not_closes (c := ':') (fun tail _ => apart tail) tail rfl
    rw [List.cons_append, separatedName?.eq_2 _ unclosed, leadingName_append_end]
  | case3 _ _ other =>
    cases text with
    | nil => rfl
    | cons c cs =>
      have noColon : ∀ rest tail, c :: rest = ':' :: tail → False := by
        intro rest tail same
        obtain ⟨rfl, _⟩ := List.cons.inj same
        exact other cs rfl
      rw [List.cons_append, separatedName?.eq_3 _ (fun tail => noColon _ (')' :: tail)) (noColon _)]

theorem tagContent_around (noEnd : ¬ endMarker <:+: front) (behind : Text) (s : Section) {stop : Nat}
    (within : stop ≤ front.length) :
    tagContent (front ++ (endMarker ++ behind)) s stop = tagContent front s stop := by
  rw [tagContent, tagContent, body_around noEnd, body_eq_self noEnd,
    List.drop_append_of_le_length within, separatedName?_append_end]

theorem untaggedContent_around (noEnd : ¬ endMarker <:+: front) (behind : Text) :
    untaggedContent (front ++ (endMarker ++ behind)) = untaggedContent (front ++ endMarker) := by
  have start : ∀ t : Text, (front ++ t).trimStart =
      if front.trimStart.isEmpty then t.trimStart else front.trimStart ++ t := fun t =>
    List.dropWhile_append
  have short := body_around noEnd []
  rw [List.append_nil] at short
  rw [untaggedContent, untaggedContent, body_around noEnd, short, start, start]
  cases front.trimStart with
  | nil => rfl
  | cons c cs =>
    by_cases colon : c = ':'
    · subst colon
      rfl
    · simp [colon]

theorem keyword_around (front behind : Text) (s : Section) :
    (front ++ (endMarker ++ behind)).indexOf? s.keyword =
      (front.indexOf? s.keyword).or
        ((Text.indexOf? (')' :: behind) s.keyword).map (· + (front.length + 1))) :=
  Text.indexOf?_append_cons s.colon_not_mem_keyword s.keyword_ne_nil

theorem findKeyword?_through (front : Text) : findKeyword? (front ++ endMarker) = findKeyword? front := by
  rw [findKeyword?, findKeyword?, ← List.append_nil endMarker]
  congr 1
  funext s
  have last : Text.indexOf? [')'] s.keyword = none := by cases s <;> rfl
  rw [keyword_around, last, Option.map_none, Option.or_none]

/-- Behind the end marker only the keyword of another section can change which one decides. -/
theorem findKeyword?_around (front behind : Text)
    (changed : findKeyword? (front ++ (endMarker ++ behind)) ≠ findKeyword? front) :
    ∃ s stop, findKeyword? (front ++ (endMarker ++ behind)) = some (s, stop) ∧
      ∀ p ∈ findKeyword? front, p.1 ≠ s := by
  have kept : ∀ t i, front.indexOf? (Section.keyword t) = some i →
      (front ++ (endMarker ++ behind)).indexOf? t.keyword = some i := by
    intro t i found
    rw [keyword_around, found, Option.some_or]
  cases whole : findKeyword? (front ++ (endMarker ++ behind)) with
  | none =>
    refine absurd ?_ changed
    rw [whole, eq_comm, findKeyword?_eq_none_iff]
    intro t member inside
    exact findKeyword?_eq_none_iff.mp whole t member (inside.trans (List.prefix_append _ _).isInfix)
  | some p =>
    obtain ⟨s, stop⟩ := p
    refine ⟨s, stop, rfl, ?_⟩
    rintro ⟨t, i⟩ own rfl
    obtain ⟨_, j, here, rfl⟩ := findKeyword?_spec whole
    obtain ⟨_, k, there, rfl⟩ := findKeyword?_spec own
    rw [kept t k there, Option.some.injEq] at here
    subst here
    exact changed (whole.trans own.symm)

theorem begin_around (front behind : Text) :
    (front ++ (endMarker ++ behind)).indexOf? beginMarker =
      ((front ++ [':']).indexOf? beginMarker).or
        ((behind.indexOf? beginMarker).map (· + ((front ++ [':']).length + 1))) := by
  have parts : front ++ (endMarker ++ behind) = front ++ [':'] ++ ')' :: behind := by
    rw [List.append_assoc]
    rfl
  rw [parts, Text.indexOf?_append_cons (by decide) (by decide)]

theorem begin_through (front : Text) :
    (front ++ endMarker).indexOf? beginMarker = (front ++ [':']).indexOf? beginMarker := by
  have whole := begin_around front []
  rw [List.append_nil, show Text.indexOf? [] beginMarker = none from rfl, Option.map_none,
    Option.or_none] at whole
  exact whole

/-- Unless another keyword decides or a begin marker stands behind the end marker only, the line reads
as if it ended there. -/
theorem readContent_around (noEnd : ¬ endMarker <:+: front) (behind : Text)
    (keyword : findKeyword? (front ++ (endMarker ++ behind)) = findKeyword? front)
    (begins : findKeyword? front = none → beginMarker <:+: front ++ (endMarker ++ behind) →
      beginMarker <:+: front ++ endMarker) :
    readContent (front ++ (endMarker ++ behind)) = readContent (front ++ endMarker) := by
  have short := body_around noEnd []
  have tagged := tagContent_around noEnd []
  rw [List.append_nil] at short tagged
  rw [readContent, readContent, keyword, findKeyword?_through]
  cases found : findKeyword? front with
  | some p =>
    obtain ⟨s, stop⟩ := p
    obtain ⟨_, i, place, rfl⟩ := findKeyword?_spec found
    have within : i + s.keyword.length ≤ front.length := by
      have starts := (Text.isPrefix_drop_of_indexOf? place).length_le
      have positive := List.length_pos_iff.mpr s.keyword_ne_nil
      rw [List.length_drop] at starts
      omega
    dsimp only
    rw [tagContent_around noEnd behind s within, tagged s within]
  | none =>
    have both : (front ++ (endMarker ++ behind)).indexOf? beginMarker =
        (front ++ endMarker).indexOf? beginMarker := by
      rw [begin_through, begin_around]
      cases own : (front ++ [':']).indexOf? beginMarker with
      | some i => rfl
      | none =>
        have absent : ¬ beginMarker <:+: front ++ endMarker := by
          rw [← Text.indexOf?_eq_none_iff, begin_through, own]
        have nowhere := Text.indexOf?_eq_none_iff.mpr (mt (begins found) absent)
        rw [begin_around, own] at nowhere
        exact nowhere
    dsimp only
    rw [both, body_around noEnd, short, untaggedContent_around noEnd]

/-- A begin marker behind the end marker hides the text in front of it. -/
theorem readContent_hidden (noEnd : ¬ endMarker <:+: front) (behind : Text)
    (keyword : findKeyword? (front ++ (endMarker ++ behind)) = none)
    (inside : beginMarker <:+: front ++ (endMarker ++ behind))
    (late : ¬ beginMarker <:+: front ++ endMarker) :
    readContent (front ++ (endMarker ++ behind)) = .begins [] := by
  have own : (front ++ [':']).indexOf? beginMarker = none := by
    rw [← begin_through, Text.indexOf?_eq_none_iff]
    exact late
  obtain ⟨i, found⟩ := Option.isSome_iff_exists.mp (Text.indexOf?_isSome_iff.mpr inside)
  rw [readContent, keyword, found, body_around noEnd]
  rw [begin_around, own, Option.none_or] at found
  obtain ⟨j, _, rfl⟩ := Option.map_eq_some_iff.mp found
  dsimp only
  rw [List.drop_eq_nil_of_le (by rw [List.length_append]; omega)]

/-- Nothing behind the end marker of a line is heard: the keyword that decides stands in front of it,
and a begin marker that stands only behind it hides nothing but blanks. -/
structure SilentBehindEnd (raw : Text) : Prop where
  keyword : findKeyword? raw = findKeyword? (throughEnd raw)
  begins : findKeyword? raw = none → beginMarker <:+: raw → ¬ beginMarker <:+: throughEnd raw →
    ∀ c ∈ (readContent (throughEnd raw)).text, isBlank c = true

end Line

namespace Draft

variable {d : Draft} {line : Line.Content}

theorem addLine_finish_iff (d : Draft) (margin : Nat) (text : Text) :
    (d.addLine margin text).finish = d.finish ↔ ∀ c ∈ text, isBlank c = true := by
  rw [← Text.dropIndent_blank_iff text margin]
  by_cases empty : d.text = []
  · have added : (d.addLine margin text).finish =
        ⟨d.target, d.name, (d.text ++ text.dropIndent margin).trimEnd⟩ := by
      rw [finish, addLine, if_pos empty, empty]
    rw [added, ← Text.trimEnd_append_eq_iff d.text]
    simp [finish]
  · have added : (d.addLine margin text).finish =
        ⟨d.target, d.name, (d.text ++ '\n' :: text.dropIndent margin).trimEnd⟩ := by
      rw [finish, addLine, if_neg empty]
      simp
    have broken : (∀ c ∈ text.dropIndent margin, isBlank c = true) ↔
        ∀ c ∈ '\n' :: text.dropIndent margin, isBlank c = true := by
      rw [List.forall_mem_cons]
      exact ⟨fun blank => ⟨by decide, blank⟩, fun both => both.2⟩
    rw [added, broken, ← Text.trimEnd_append_eq_iff d.text]
    simp [finish]

/-- The blanks of a line that is the last one are trimmed off. -/
theorem add_finish_iff (untagged : line.target? = none) (d : Draft) :
    (d.add line).finish = d.finish ↔ ∀ c ∈ line.text, isBlank c = true := by
  cases line with
  | tag s name text => cases untagged
  | begins text | continuation text | plain text => exact d.addLine_finish_iff _ text
  | blank => exact iff_of_true rfl nofun

end Draft

/-- The lines of a comment up to the one that ends the block, and the same with that line cut off. -/
theorem lines_throughEnd {comment : Text} (contains : endMarker <:+: comment) :
    ∃ before front behind rest, (∀ raw ∈ before, ¬ endMarker <:+: raw) ∧ ¬ endMarker <:+: front ∧
      comment.lines = before ++ (front ++ (endMarker ++ behind)) :: rest ∧
      (throughEnd comment).lines = before ++ [front ++ endMarker] := by
  obtain ⟨s, t, absent, rfl⟩ := exists_around_end contains
  obtain ⟨before, front, behind, rest, same, short, long⟩ :=
    Text.lines_append_word endMarker_ne_nil endMarker_visible s t
  have unified : ∀ raw, raw <:+: Text.unifyBreaks s → ¬ endMarker <:+: raw := by
    intro raw inside ends
    exact absent (Text.infix_of_infix_unifyBreaks endMarker_ne_nil endMarker_no_feed (ends.trans inside))
  refine ⟨before, front, behind, rest, fun raw member => ?_, ?_, long, ?_⟩
  · refine unified raw ?_
    rw [same]
    exact Text.infix_of_mem_pieces member front
  · refine unified front ?_
    rw [same]
    exact (List.suffix_append _ _).isInfix
  · rw [throughEnd_around absent, short]

/-- Two comments that are rendered alike define the same elements, up to the order of the sections. -/
theorem elementsOf_perm {c d : Text} (same : render (.xml none) c = render (.xml none) d) :
    (elementsOf c).Perm (elementsOf d) := by
  have read := Xml.readDocument_bySection Xml.named_none
  have sorted : Element.bySection (elementsOf c) = Element.bySection (elementsOf d) :=
    Option.some.inj ((read c).symm.trans (same ▸ read d))
  rw [Element.bySection_eq_mergeSort, Element.bySection_eq_mergeSort] at sorted
  have perm := (List.mergeSort_perm (elementsOf c) Element.notAfter).symm
  rw [sorted] at perm
  exact perm.trans (List.mergeSort_perm _ _)

namespace Element

variable {lines : List Line.Content} {x y : Line.Content}

/-- Another tag line at the end gives other elements. -/
theorem not_perm_of_target {s : Section} (tagged : x.target? = some s) (other : y.target? ≠ some s)
    (visible : s ≠ .description) : ¬ (ofLines (lines ++ [x])).Perm (ofLines (lines ++ [y])) := by
  have single : ∀ z : Line.Content, z.target? ≠ none →
      ∃ e, ofLines (lines ++ [z]) = ofLines lines ++ [e] ∧ z.target? = some e.target := by
    intro z own
    rw [ofLines_append_tagged own]
    cases z with
    | tag t name text => exact ⟨_, rfl, rfl⟩
    | begins | continuation | plain | blank => exact absurd rfl own
  intro perm
  obtain ⟨e, first, target⟩ := single x (by rw [tagged]; exact Option.some_ne_none s)
  cases untagged : y.target? with
  | some t =>
    obtain ⟨f, second, same⟩ := single y (by rw [untagged]; exact Option.some_ne_none t)
    rw [first, second, List.perm_append_left_iff, List.singleton_perm_singleton] at perm
    rw [same, ← perm, ← target, tagged] at other
    exact other rfl
  | none =>
    obtain ⟨es, last, before, added⟩ := exists_last lines
    rw [added y untagged] at perm
    rcases before with ⟨rfl, rfl, rfl⟩ | before
    · rw [first, ofLines, List.nil_append, List.nil_append, List.singleton_perm_singleton] at perm
      rw [tagged, Option.some.injEq, perm, Draft.finish, Draft.add_target] at target
      exact visible target
    · have size := perm.length_eq
      rw [first, before] at size
      simp only [List.length_append, List.length_singleton] at size
      omega

/-- Of two lines without a tag at the end, one of blanks, both bring the same exactly if the other has
only blanks as well. -/
theorem last_eq_iff (first : x.target? = none) (second : y.target? = none)
    (blank : ∀ c ∈ x.text, isBlank c = true) :
    ∃ (es : List Element) (e f : Element), ofLines (lines ++ [x]) = es ++ [e] ∧
      ofLines (lines ++ [y]) = es ++ [f] ∧ (e = f ↔ ∀ c ∈ y.text, isBlank c = true) := by
  obtain ⟨es, last, _, added⟩ := exists_last lines
  refine ⟨es, _, _, added x first, added y second, ?_⟩
  rw [(Draft.add_finish_iff first last).mpr blank, eq_comm]
  exact Draft.add_finish_iff second last

end Element

namespace Line

variable {front : Text}

/-- A line that is silent behind its end marker brings what it brings when it is cut off there, and any
other line brings something else. -/
theorem silentBehindEnd_spec (lines : List Content) (noEnd : ¬ endMarker <:+: front) (behind : Text) :
    (SilentBehindEnd (front ++ (endMarker ++ behind)) →
      Element.ofLines (lines ++ [readContent (front ++ (endMarker ++ behind))]) =
        Element.ofLines (lines ++ [readContent (front ++ endMarker)])) ∧
    ((Element.ofLines (lines ++ [readContent (front ++ (endMarker ++ behind))])).Perm
        (Element.ofLines (lines ++ [readContent (front ++ endMarker)])) →
      SilentBehindEnd (front ++ (endMarker ++ behind))) := by
  -- The one case in which the line is read in another way and may all the same bring nothing else.
  have hidden : findKeyword? (front ++ (endMarker ++ behind)) = none → findKeyword? front = none →
      beginMarker <:+: front ++ (endMarker ++ behind) → ¬ beginMarker <:+: front ++ endMarker →
      ∃ (es : List Element) (e f : Element),
        Element.ofLines (lines ++ [readContent (front ++ (endMarker ++ behind))]) = es ++ [e] ∧
        Element.ofLines (lines ++ [readContent (front ++ endMarker)]) = es ++ [f] ∧
        (e = f ↔ ∀ c ∈ (readContent (front ++ endMarker)).text, isBlank c = true) := by
    intro whole own inside late
    have untagged : (readContent (front ++ endMarker)).target? = none := by
      rw [readContent_target?, findKeyword?_through, own, Option.map_none]
    rw [readContent_hidden noEnd behind whole inside late]
    exact Element.last_eq_iff rfl untagged nofun
  have through := throughEnd_around noEnd behind
  constructor
  · rintro ⟨keyword, begins⟩
    rw [through, findKeyword?_through] at keyword
    rw [through, keyword] at begins
    by_cases late : findKeyword? front = none ∧ beginMarker <:+: front ++ (endMarker ++ behind) ∧
        ¬ beginMarker <:+: front ++ endMarker
    · obtain ⟨own, inside, late⟩ := late
      obtain ⟨es, e, f, first, second, same⟩ := hidden (keyword.trans own) own inside late
      rw [first, second, same.mpr (begins own inside late)]
    · have begins : findKeyword? front = none → beginMarker <:+: front ++ (endMarker ++ behind) →
          beginMarker <:+: front ++ endMarker := by
        intro own inside
        by_contra absent
        exact late ⟨own, inside, absent⟩
      rw [readContent_around noEnd behind keyword begins]
  · intro perm
    have keyword : findKeyword? (front ++ (endMarker ++ behind)) = findKeyword? front := by
      by_contra changed
      obtain ⟨s, stop, whole, others⟩ := findKeyword?_around front behind changed
      have visible := Section.mem_tagged.mp (findKeyword?_spec whole).1
      refine Element.not_perm_of_target ?_ ?_ visible perm
      · rw [readContent_target?, whole, Option.map_some]
      · rw [readContent_target?, findKeyword?_through]
        intro same
        obtain ⟨p, own, target⟩ := Option.map_eq_some_iff.mp same
        exact others p own target
    refine ⟨by rw [through, findKeyword?_through, keyword], ?_⟩
    rw [through]
    intro untagged inside late
    obtain ⟨es, e, f, first, second, same⟩ := hidden untagged (keyword.symm.trans untagged) inside late
    rw [first, second, List.perm_append_left_iff, List.singleton_perm_singleton] at perm
    exact same.mp perm

end Line

/-- What follows the first end marker of a comment has no influence on its document exactly if the line
of that end marker is silent behind it. Nothing on later lines has any. -/
theorem render_throughEnd_iff (comment : Text) :
    render (.xml none) comment = render (.xml none) (throughEnd comment) ↔
      ∀ raw ∈ comment.lines.find? fun raw => (Line.read raw).endsBlock, Line.SilentBehindEnd raw := by
  by_cases contains : endMarker <:+: comment
  · obtain ⟨before, front, behind, rest, runsOn, noEnd, long, short⟩ := lines_throughEnd contains
    have ends : ∀ t, endMarker <:+: front ++ (endMarker ++ t) := fun t =>
      (List.prefix_append endMarker t).isInfix.trans (List.suffix_append front _).isInfix
    have found : comment.lines.find? (fun raw => (Line.read raw).endsBlock) =
        some (front ++ (endMarker ++ behind)) := by
      have passed : before.find? (fun raw => (Line.read raw).endsBlock) = none :=
        List.find?_eq_none.mpr fun raw member => mt (Line.endsBlock_iff raw).mp (runsOn raw member)
      rw [long, List.find?_append, passed, Option.none_or]
      exact List.find?_cons_of_pos ((Line.endsBlock_iff _).mpr (ends behind))
    have last := ends []
    rw [List.append_nil] at last
    have whole := elementsOf_of_ending long runsOn (ends behind)
    have cut := elementsOf_of_ending short runsOn last
    obtain ⟨enough, needed⟩ :=
      Line.silentBehindEnd_spec (before.map Line.readContent) noEnd behind
    rw [found]
    constructor
    · rintro same raw ⟨⟩
      have perm := elementsOf_perm same
      rw [whole, cut] at perm
      exact needed perm
    · intro silent
      rw [render_eq_documentOf, render_eq_documentOf, whole, cut, enough (silent _ rfl)]
  · have whole : throughEnd comment = comment := by
      rw [throughEnd, Text.indexOf?_eq_none_iff.mpr contains]
    have never : comment.lines.find? (fun raw => (Line.read raw).endsBlock) = none := by
      refine List.find?_eq_none.mpr fun raw member ends => contains ?_
      exact Text.infix_of_infix_line endMarker_ne_nil endMarker_no_feed member
        ((Line.endsBlock_iff raw).mp ends)
    rw [whole, never]
    exact iff_of_true rfl nofun

/-- A keyword behind the end marker opens an element. -/
theorem keyword_heard_behind_end :
    throughEnd ":) @see".toList = ":)".toList ∧
      render (.xml none) ":) @see".toList ≠ render (.xml none) (throughEnd ":) @see".toList) := by
  decide +kernel

end DocComment
