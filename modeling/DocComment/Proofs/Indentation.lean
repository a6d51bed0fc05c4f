import DocComment.Proofs.InsertedBlanks
import DocComment.Proofs.Assembly

/-! Indentation. With the same blanks in front of the text of every line, the margin of each element moves
with its lines, so the same text is left of them. Plain lines, whose text starts with the line itself,
have no part in this. -/
namespace DocComment

variable {w : Text}

namespace Draft

variable {d d' : Draft} {content : Line.Content}

/-- A draft of lines that all have some blanks more in front. As long as there is no text, the margin
counts for nothing. -/
structure Shifted (w : Text) (d d' : Draft) : Prop where
  target : d'.target = d.target
  name : d'.name = d.name
  text : d'.text = d.text
  margin : d.text ≠ [] → d'.margin = w.length + d.margin

theorem shifted_description (w : Text) : Shifted w description description :=
  ⟨rfl, rfl, rfl, fun spoken => absurd rfl spoken⟩

theorem Shifted.finish (h : Shifted w d d') : d'.finish = d.finish := by
  rw [Draft.finish, Draft.finish, h.target, h.name, h.text]

theorem shifted_tagged (blank : ∀ c ∈ w, isBlank c = true) (s : Section) (name : Option Text) (text : Text) :
    Shifted w (tagged s name text) (tagged s name (w ++ text)) where
  target := rfl
  name := rfl
  text := congrArg Text.trimEnd (Text.trimStart_append_of_blank blank text)
  margin _ := Text.leadingBlanks_append blank text

theorem Shifted.addLine (h : Shifted w d d') (blank : ∀ c ∈ w, isBlank c = true) (margin : Nat) (line : Text) :
    Shifted w (d.addLine margin line) (d'.addLine (w.length + margin) (w ++ line)) where
  target := h.target
  name := h.name
  text := by rw [Draft.addLine, Draft.addLine, h.text, Text.dropIndent_append blank]
  margin _ := rfl

theorem Shifted.add (h : Shifted w d d') (blank : ∀ c ∈ w, isBlank c = true)
    (noPlain : ∀ text, content ≠ .plain text) : Shifted w (d.add content) (d'.add (content.indented w)) := by
  cases content with
  | tag s name text => exact h
  | begins text =>
    have added := h.addLine blank text.leadingBlanks text
    rwa [← Text.leadingBlanks_append blank] at added
  | continuation text =>
    have margin : (if d'.text = [] then (w ++ text).leadingBlanks else d'.margin) =
        w.length + if d.text = [] then text.leadingBlanks else d.margin := by
      rw [h.text]
      split
      · exact Text.leadingBlanks_append blank text
      · next spoken => exact h.margin spoken
    have added := h.addLine blank (if d.text = [] then text.leadingBlanks else d.margin) text
    rwa [← margin] at added
  | plain text => exact absurd rfl (noPlain text)
  | blank => exact h

theorem Shifted.finish_addLine (h : Shifted w d d') (margin margin' : Nat) :
    (d'.addLine margin' []).finish = (d.addLine margin []).finish := by
  simp only [Draft.finish, Draft.addLine, h.target, h.name, h.text, Text.dropIndent_nil]

/-- A line whose text is hidden comes to the same at any margin. -/
theorem Shifted.finish_add (h : Shifted w d d') (hidden : content.withText [] = content)
    (noPlain : ∀ text, content ≠ .plain text) : (d'.add content).finish = (d.add content).finish := by
  cases content with
  | tag s name text => exact h.finish
  | begins text | continuation text =>
    cases hidden
    exact h.finish_addLine _ _
  | plain text => exact absurd rfl (noPlain text)
  | blank => exact h.finish

/-- What holds of the lines behind holds of a line in front of them, too. -/
theorem Shifted.elements_cons {rest rest' : List Line.Content} (h : Shifted w d d')
    (blank : ∀ c ∈ w, isBlank c = true) (noPlain : ∀ text, content ≠ .plain text)
    (tail : ∀ {e e' : Draft}, Shifted w e e' → e'.elements rest' = e.elements rest) :
    d'.elements (content.indented w :: rest') = d.elements (content :: rest) := by
  cases content with
  | tag s name text => exact congrArg₂ List.cons h.finish (tail (shifted_tagged blank s name text))
  | begins | continuation | plain | blank => exact tail (h.add blank noPlain)

theorem Shifted.elements_hidden (h : Shifted w d d') (hidden : content.withText [] = content)
    (noPlain : ∀ text, content ≠ .plain text) : d'.elements [content] = d.elements [content] := by
  cases content with
  | tag s name text => exact congrArg (· :: _) h.finish
  | begins | continuation | plain | blank => exact congrArg (fun e => [e]) (h.finish_add hidden noPlain)

theorem Shifted.elements_blockLines (h : Shifted w d d') (blank : ∀ c ∈ w, isBlank c = true) {raws : List Text}
    (noPlain : ∀ raw ∈ blockLines raws, ∀ text, Line.readContent raw ≠ .plain text) :
    d'.elements ((blockLines (raws.map (Line.indent w))).map Line.readContent) =
      d.elements ((blockLines raws).map Line.readContent) := by
  induction raws generalizing d d' with
  | nil => exact congrArg (fun e => [e]) h.finish
  | cons raw raws ih =>
    rw [List.map_cons]
    by_cases ends : endMarker <:+: raw
    · rw [blockLines_ending ends] at noPlain ⊢
      have plain := noPlain raw (List.mem_singleton_self raw)
      rw [blockLines_ending ((Line.endMarker_infix_indent_iff blank raw).mpr ends)]
      rcases Line.readContent_indent blank raw with moved | ⟨_, hidden, same⟩
      · rw [List.map_singleton, List.map_singleton, moved]
        exact h.elements_cons blank plain fun h => congrArg (fun e => [e]) h.finish
      · rw [List.map_singleton, List.map_singleton, same]
        exact h.elements_hidden hidden plain
    · have ends' := mt (Line.endMarker_infix_indent_iff blank raw).mp ends
      rw [blockLines_running ends] at noPlain ⊢
      obtain ⟨plain, later⟩ := List.forall_mem_cons.mp noPlain
      rw [blockLines_running ends', List.map_cons, List.map_cons,
        (Line.readContent_indent blank raw).resolve_right fun hidden => ends hidden.1]
      exact h.elements_cons blank plain fun h => ih h later

end Draft

namespace Element

/-- The elements of some lines are those of an empty description in front of them, unless the first line
opens an element of its own. -/
theorem elements_description (content : Line.Content) (rest : List Line.Content) :
    Draft.description.elements (content :: rest) =
      (if content.target?.isSome then [Draft.description.finish] else []) ++ ofLines (content :: rest) := by
  cases content <;> rfl

end Element

theorem Line.target?_readContent_indent (blank : ∀ c ∈ w, isBlank c = true) (raw : Text) :
    (readContent (indent w raw)).target? = (readContent raw).target? := by
  rcases readContent_indent blank raw with moved | ⟨_, _, same⟩
  · rw [moved]
    cases readContent raw <;> rfl
  · rw [same]

theorem ofLines_blockLines_indent (blank : ∀ c ∈ w, isBlank c = true) {raws : List Text}
    (noPlain : ∀ raw ∈ blockLines raws, ∀ text, Line.readContent raw ≠ .plain text) :
    Element.ofLines ((blockLines (raws.map (Line.indent w))).map Line.readContent) =
      Element.ofLines ((blockLines raws).map Line.readContent) := by
  have all := (Draft.shifted_description w).elements_blockLines blank noPlain
  cases raws with
  | nil => rfl
  | cons raw raws =>
    rw [List.map_cons, Assembler.blockLines_cons, Assembler.blockLines_cons, List.map_cons, List.map_cons] at all ⊢
    rw [Element.elements_description, Element.elements_description, Line.target?_readContent_indent blank] at all
    exact List.append_cancel_left all

/-- A text with a line feed behind each of some lines. -/
def Text.unlines (raws : List Text) : Text := raws.flatMap (· ++ ['\n'])

theorem Text.lines_unlines {raws : List Text} (oneLine : ∀ raw ∈ raws, Layout.OneLine raw) :
    (unlines raws).lines = raws := by
  have returns : '\r' ∉ unlines raws := by
    intro inside
    obtain ⟨raw, member, inside⟩ := List.mem_flatMap.mp inside
    rcases List.mem_append.mp inside with inside | inside
    · exact (oneLine raw member _ inside).1 rfl
    · exact absurd inside (by decide)
  have feeds : ∀ raw ∈ raws, '\n' ∉ raw := fun raw member inside => (oneLine raw member _ inside).2 rfl
  have cut := Text.cut_flatMap feeds []
  rw [List.append_nil, Text.cut_nil, List.append_nil] at cut
  rw [lines, unifyBreaks_eq_self returns]
  exact cut

theorem Layout.OneLine.indent (blank : ∀ c ∈ w, isBlank c = true ∧ c ≠ '\r' ∧ c ≠ '\n') {raw : Text}
    (h : OneLine raw) : OneLine (Line.indent w raw) := by
  rw [Line.indent]
  split
  · intro c inside
    rcases List.mem_append.mp inside with inside | behind
    · rcases List.mem_append.mp inside with front | inserted
      · exact h c (List.mem_of_mem_take front)
      · exact (blank c inserted).2
    · exact h c (List.mem_of_mem_drop behind)
  · exact h

/-- Only relative indentation matters: the same blanks in front of the text of every line leave the
document as it is. What a line contributes begins where its blanks are put, and only blank and plain lines
get none. -/
theorem render_indent (m : Markup) (blank : ∀ c ∈ w, isBlank c = true ∧ c ≠ '\r' ∧ c ≠ '\n') {raws : List Text}
    (oneLine : ∀ raw ∈ raws, Layout.OneLine raw)
    (noPlain : ∀ raw ∈ blockLines raws, ∀ text, Line.readContent raw ≠ .plain text) :
    render m (Text.unlines (raws.map (Line.indent w))) = render m (Text.unlines raws) ∧
      (∀ comment indented : Text, comment.lines = raws → indented.lines = raws.map (Line.indent w) →
        render m indented = render m comment) ∧
      ∀ raw, match Line.textStart? raw with
        | some i => Line.indent w raw = raw.take i ++ w ++ raw.drop i ∧
          (Line.readContent raw).text = (Line.body raw).drop i
        | none => Line.indent w raw = raw ∧
          (Line.readContent raw = .blank ∨ ∃ text, Line.readContent raw = .plain text) := by
  have same : ∀ comment indented : Text, comment.lines = raws → indented.lines = raws.map (Line.indent w) →
      render m indented = render m comment := by
    intro comment indented lines lines'
    rw [render_eq_documentOf, render_eq_documentOf, elementsOf, elementsOf, lines, lines',
      ofLines_blockLines_indent (fun c member => (blank c member).1) noPlain]
  refine ⟨same _ _ (Text.lines_unlines oneLine) (Text.lines_unlines ?_), same, Line.indent_at_text w⟩
  intro raw member
  obtain ⟨original, inside, rfl⟩ := List.mem_map.mp member
  exact (oneLine original inside).indent blank

/-- Lines of each kind but plain ones, with text at several depths. -/
def mixedLines : List Text :=
  ["(:~".toList, " : Adds.".toList, " :   Twice.".toList, " : @custom:k  v".toList, " :w".toList, "@see".toList,
    " : x @since".toList, " :) @param".toList]

theorem render_indent_mixed :
    mixedLines.map (Line.indent "  ".toList) =
      ["(:~  ".toList, " :   Adds.".toList, " :     Twice.".toList, " : @custom:k    v".toList, " :  w".toList,
        "@see  ".toList, " : x @since  ".toList, " :) @param  ".toList] ∧
    (∀ raw ∈ mixedLines, Layout.OneLine raw) ∧
    (∀ raw ∈ blockLines mixedLines, ∀ text, Line.readContent raw ≠ .plain text) ∧
    render (.xml none) (Text.unlines (mixedLines.map (Line.indent "  ".toList))) =
      render (.xml none) (Text.unlines mixedLines) := by
  have oneLine : ∀ raw ∈ mixedLines, Layout.OneLine raw := by decide +kernel
  have contents : (blockLines mixedLines).map Line.readContent =
      [.begins [], .continuation " Adds.".toList, .continuation "   Twice.".toList,
        .tag .custom (some "k".toList) "  v".toList, .continuation "w".toList, .tag .see none [],
        .tag .since none [], .tag .param none []] := by decide +kernel
  have noPlain : ∀ raw ∈ blockLines mixedLines, ∀ text, Line.readContent raw ≠ .plain text := by
    intro raw member text plain
    have inside : Line.Content.plain text ∈ (blockLines mixedLines).map Line.readContent :=
      List.mem_map.mpr ⟨raw, member, plain⟩
    rw [contents] at inside
    simp at inside
  exact ⟨by decide +kernel, oneLine, noPlain, (render_indent (.xml none) (by decide) oneLine noPlain).1⟩

end DocComment
