import DocComment.Layout
import DocComment.Proofs.LineReading
import Mathlib.Tactic.MkIffOfInductiveProp

/-! The lines of the usual layout, read one by one. A keyword cannot begin in front of the one
written, since no part before it holds an at sign, and none reaches over the blank behind it. -/
namespace DocComment

namespace Section

theorem at_not_mem_name (s : Section) : '@' ∉ s.name := by cases s <;> decide

theorem keyword_solid (s : Section) : s.keyword.Solid := by cases s <;> decide

theorem space_not_mem_keyword (s : Section) : ' ' ∉ s.keyword := fun inside =>
  absurd (s.keyword_solid ' ' inside) (by decide)

theorem colon_not_mem_keyword (s : Section) : ':' ∉ s.keyword := by cases s <;> decide

theorem keyword_ne_nil (s : Section) : s.keyword ≠ [] := List.cons_ne_nil _ _

theorem name_prefix_inj {s t : Section} (h : s.name <+: t.name) : s = t := by
  revert h
  cases s <;> cases t <;> decide

/-- Behind a keyword another one has to begin anew. -/
theorem keyword_infix_append {s t : Section} (other : t ≠ s) (rest : Text) :
    t.keyword <:+: s.keyword ++ rest ↔ t.keyword <:+: rest := by
  have first : ¬ t.keyword <+: '@' :: (s.name ++ rest) := by
    intro starts
    have names := (List.cons_prefix_cons.mp starts).2
    rcases List.prefix_or_prefix_of_prefix names (List.prefix_append s.name rest) with h | h
    · exact other (name_prefix_inj h)
    · exact other (name_prefix_inj h).symm
  rw [keyword, keyword, List.cons_append, List.infix_cons_iff]
  rw [keyword] at first
  simp only [first, false_or]
  exact Text.infix_append_iff (at_not_mem_name s)

end Section

namespace Line

variable {raw name rest : Text} {s : Section}

theorem findKeyword?_eq_none_iff :
    findKeyword? raw = none ↔ ∀ s ∈ Section.tagged, ¬ s.keyword <:+: raw := by
  simp only [findKeyword?, List.findSome?_eq_none_iff, Option.map_eq_none_iff,
    Text.indexOf?_eq_none_iff]

theorem findKeyword?_eq_some {i : Nat} (tagged : s ∈ Section.tagged)
    (found : raw.indexOf? s.keyword = some i)
    (others : ∀ t ∈ Section.tagged, t ≠ s → ¬ t.keyword <:+: raw) :
    findKeyword? raw = some (s, i + s.keyword.length) := by
  cases read : findKeyword? raw with
  | none =>
    have absent := Text.indexOf?_eq_none_iff.mpr (findKeyword?_eq_none_iff.mp read s tagged)
    rw [found] at absent
    cases absent
  | some p =>
    obtain ⟨t, member, reached⟩ := List.exists_of_findSome?_eq_some read
    by_cases same : t = s
    · subst same
      rw [found] at reached
      exact reached.symm
    · rw [Text.indexOf?_eq_none_iff.mpr (others t member same)] at reached
      cases reached

/-- A name goes on up to the blank behind it. -/
theorem leadingName_append {blank : Char} (ends : isBlank blank = true) (solid : name.Solid)
    (noEnd : ¬ endMarker <:+: name) (rest : Text) : leadingName (name ++ blank :: rest) = name := by
  have unclosed : blank ≠ ')' := by
    rintro rfl
    exact absurd ends (by decide)
  induction name with
  | nil =>
    have apart : ∀ tail, blank = ':' → rest = ')' :: tail → False := by
      rintro tail rfl
      exact absurd ends (by decide)
    rw [List.nil_append, leadingName.eq_3 blank _ apart, if_pos ends]
  | cons c cs ih =>
    have later := ih (fun d member => solid d (List.mem_cons_of_mem c member))
      (fun inside => noEnd (inside.trans (List.suffix_cons c cs).isInfix))
    have apart : ∀ tail, c = ':' → cs ++ blank :: rest = ')' :: tail → False := by
      rintro tail rfl closes
      cases cs with
      | nil => exact unclosed (List.cons.inj closes).1
      | cons d ds =>
        obtain ⟨rfl, _⟩ := List.cons.inj closes
        exact noEnd (List.prefix_append endMarker ds).isInfix
    rw [List.cons_append, leadingName.eq_3 c _ apart, solid c List.mem_cons_self, later]
    rfl

end Line

namespace Layout

/-- No character of the line ends it. -/
def OneLine (line : Text) : Prop := ∀ c ∈ line, c ≠ '\r' ∧ c ≠ '\n'

instance : DecidablePred OneLine := fun line =>
  inferInstanceAs (Decidable (∀ c ∈ line, c ≠ '\r' ∧ c ≠ '\n'))

/-- A line that holds no line break, no marker and no keyword. -/
@[mk_iff]
structure Bare (line : Text) : Prop where
  oneLine : OneLine line
  noBegin : ¬ beginMarker <:+: line
  noEnd : ¬ endMarker <:+: line
  noKeyword : ∀ s ∈ Section.tagged, ¬ s.keyword <:+: line

instance : DecidablePred Bare := fun line => decidable_of_iff _ (bare_iff line).symm

/-- A name that is read back whole behind the custom keyword and a colon. -/
@[mk_iff]
structure Plain (name : Text) : Prop where
  nonempty : name ≠ []
  solid : name.Solid
  noEnd : ¬ endMarker <:+: name
  noKeyword : ∀ s ∈ Section.tagged, ¬ s.keyword <:+: name
  head : name.head? ≠ some ')'

instance : DecidablePred Plain := fun name => decidable_of_iff _ (plain_iff name).symm

variable {line name : Text} {s : Section} {name? : Option Text}

/-- What stands between a keyword and the blank in front of the text. -/
def nameSuffix (name? : Option Text) : Text := (name?.map (':' :: ·)).getD []

theorem infix_lead_iff {word : Text} (solid : ' ' ∉ word) (noColon : ¬ word <:+: " :".toList)
    (rest : Text) : word <:+: " : ".toList ++ rest ↔ word <:+: rest := by
  have nonempty : word ≠ [] := by
    rintro rfl
    exact noColon List.nil_infix
  rw [show " : ".toList ++ rest = " :".toList ++ ' ' :: rest from rfl,
    Text.infix_append_cons_iff solid nonempty]
  simp only [noColon, false_or]

theorem endMarker_infix_lead (rest : Text) :
    endMarker <:+: " : ".toList ++ rest ↔ endMarker <:+: rest :=
  infix_lead_iff (by decide) (by decide) rest

theorem keyword_infix_lead (s : Section) (rest : Text) :
    s.keyword <:+: " : ".toList ++ rest ↔ s.keyword <:+: rest :=
  Text.infix_append_iff (by decide)

/-- A line of the usual layout continues the text above it. -/
theorem read_line (bare : Bare line) :
    Line.read (" : ".toList ++ line) = ⟨.continuation (' ' :: line), false⟩ := by
  have noEnd := mt (endMarker_infix_lead line).mp bare.noEnd
  have noBegin := mt (infix_lead_iff (by decide) (by decide) line).mp bare.noBegin
  have noKeyword : Line.findKeyword? (" : ".toList ++ line) = none := by
    refine Line.findKeyword?_eq_none_iff.mpr fun s tagged => ?_
    exact mt (keyword_infix_lead s line).mp (bare.noKeyword s tagged)
  rw [Line.read_eq noEnd, Line.readContent, noKeyword, Text.indexOf?_eq_none_iff.mpr noBegin,
    Line.untaggedContent, Line.body_eq_self noEnd]
  rfl

theorem endMarker_not_infix_nameSuffix (plain : ∀ n ∈ name?, Plain n) :
    ¬ endMarker <:+: nameSuffix name? := by
  cases name? with
  | none => decide
  | some name =>
    intro inside
    rcases List.infix_cons_iff.mp inside with starts | inside
    · obtain ⟨rest, same⟩ := (List.cons_prefix_cons.mp starts).2
      exact (plain name rfl).head (congrArg List.head? same.symm)
    · exact (plain name rfl).noEnd inside

theorem keyword_not_infix_nameSuffix (plain : ∀ n ∈ name?, Plain n)
    (tagged : s ∈ Section.tagged) : ¬ s.keyword <:+: nameSuffix name? := by
  cases name? with
  | none => exact mt List.infix_nil.mp s.keyword_ne_nil
  | some name =>
    have colon : s.keyword <:+: [':'] ++ name ↔ s.keyword <:+: name := Text.infix_append_iff (by decide)
    exact mt colon.mp ((plain name rfl).noKeyword s tagged)

/-- The longest possible name is read behind the keyword, and only behind the custom one. -/
theorem tagContent_lead (plain : ∀ n ∈ name?, Plain n)
    (customOnly : name? ≠ none → s = .custom) {raw front first : Text}
    (noEnd : ¬ endMarker <:+: raw) (parts : raw = front ++ (nameSuffix name? ++ ' ' :: first)) :
    Line.tagContent raw s front.length = .tag s name? (' ' :: first) := by
  have behind : raw.drop front.length = nameSuffix name? ++ ' ' :: first := by
    rw [parts, List.drop_left]
  rw [Line.tagContent, Line.body_eq_self noEnd, behind]
  cases name? with
  | none =>
    have unnamed : (if s = .custom then Line.separatedName? (' ' :: first) else none) = none := by
      split <;> rfl
    simp only [nameSuffix, Option.map_none, Option.getD_none, List.nil_append, unnamed]
  | some name =>
    obtain ⟨nonempty, solid, noInner, _, head⟩ := plain name rfl
    have separated : Line.separatedName? (nameSuffix (some name) ++ ' ' :: first) = some name := by
      have read := Line.leadingName_append (by decide : isBlank ' ' = true) solid noInner first
      cases name with
      | nil => contradiction
      | cons c cs =>
        have apart : ∀ tail, c :: cs ++ ' ' :: first = ')' :: tail → False := by
          intro tail closes
          exact head (congrArg some (List.cons.inj closes).1)
        have named := Line.separatedName?.eq_2 (c :: cs ++ ' ' :: first) apart
        rw [read] at named
        exact named
    have rest : raw.drop (front.length + 1 + name.length) = ' ' :: first := by
      rw [Nat.add_assoc, ← List.drop_drop, behind, Nat.add_comm]
      exact (List.drop_left : (':' :: name ++ ' ' :: first).drop (':' :: name).length = _)
    rw [if_pos (customOnly (Option.some_ne_none name)), separated]
    simp only [nonempty, if_false, rest]

/-- A tag line of the usual layout opens the element it is written for. -/
theorem read_tagLine (tagged : s ∈ Section.tagged) (plain : ∀ n ∈ name?, Plain n)
    (customOnly : name? ≠ none → s = .custom) {first : Text} (bare : Bare first) :
    Line.read (" : ".toList ++ (s.keyword ++ nameSuffix name? ++ ' ' :: first)) =
      ⟨.tag s name? (' ' :: first), false⟩ := by
  have noEnd : ¬ endMarker <:+: " : ".toList ++ (s.keyword ++ nameSuffix name? ++ ' ' :: first) := by
    rw [endMarker_infix_lead, Text.infix_append_cons_iff (by decide) (by decide), endMarker,
      String.toList_ofList, Text.infix_append_iff s.colon_not_mem_keyword]
    exact not_or.mpr ⟨endMarker_not_infix_nameSuffix plain, bare.noEnd⟩
  have others : ∀ t ∈ Section.tagged, t ≠ s →
      ¬ t.keyword <:+: " : ".toList ++ (s.keyword ++ nameSuffix name? ++ ' ' :: first) := by
    intro t member other
    rw [keyword_infix_lead, List.append_assoc, Section.keyword_infix_append other,
      Text.infix_append_cons_iff t.space_not_mem_keyword t.keyword_ne_nil]
    exact not_or.mpr ⟨keyword_not_infix_nameSuffix plain member, bare.noKeyword t member⟩
  have starts : s.keyword <+: s.keyword ++ nameSuffix name? ++ ' ' :: first := by
    rw [List.append_assoc]
    exact List.prefix_append _ _
  have found := Text.indexOf?_append (s := " : ".toList) (c := '@') (by decide) starts
  have key := Line.findKeyword?_eq_some tagged found others
  have parts : " : ".toList ++ (s.keyword ++ nameSuffix name? ++ ' ' :: first) =
      (" : ".toList ++ s.keyword) ++ (nameSuffix name? ++ ' ' :: first) := by
    simp only [List.append_assoc]
  have content := tagContent_lead plain customOnly noEnd parts
  rw [List.length_append] at content
  rw [Line.read_eq noEnd, Line.readContent, key]
  exact congrArg (Line.mk · false) content

end Layout
end DocComment
