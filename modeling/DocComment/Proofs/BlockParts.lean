import DocComment.Block
import DocComment.Proofs.LineReading

/-! Blocks in parts. A tag line ends the element above it and opens one of its own, so the elements
of a block are those of the lines in front of a tag line, and then those of the lines from it on. A
line without a tag only adds to the last element. -/
namespace DocComment

variable {raws : List Text} {raw : Text} {lines : List Line.Content} {line : Line.Content}

/-- As long as no line ends the block, all lines belong to it. -/
theorem blockLines_append (runsOn : ∀ raw ∈ raws, ¬ endMarker <:+: raw) (more : List Text) :
    blockLines (raws ++ more) = raws ++ blockLines more := by
  induction raws with
  | nil => rfl
  | cons raw raws ih =>
    have later := ih fun r member => runsOn r (List.mem_cons_of_mem raw member)
    have first := mt (Line.endsBlock_iff raw).mp (runsOn raw List.mem_cons_self)
    rw [List.cons_append, blockLines, if_neg first, later, List.cons_append]

theorem blockLines_eq_self (runsOn : ∀ raw ∈ raws, ¬ endMarker <:+: raw) : blockLines raws = raws := by
  have whole := blockLines_append runsOn []
  rwa [blockLines, List.append_nil] at whole

theorem blockLines_running (runsOn : ¬ endMarker <:+: raw) (more : List Text) :
    blockLines (raw :: more) = raw :: blockLines more :=
  blockLines_append (List.forall_mem_singleton.mpr runsOn) more

theorem blockLines_ending (ends : endMarker <:+: raw) (more : List Text) :
    blockLines (raw :: more) = [raw] := by
  rw [blockLines, if_pos ((Line.endsBlock_iff raw).mpr ends)]

theorem elementsOf_of_ending {comment : Text} {rest : List Text} (lines : comment.lines = raws ++ raw :: rest)
    (runsOn : ∀ raw ∈ raws, ¬ endMarker <:+: raw) (ends : endMarker <:+: raw) :
    elementsOf comment = Element.ofLines (raws.map Line.readContent ++ [Line.readContent raw]) := by
  rw [elementsOf, lines, blockLines_append runsOn, blockLines_ending ends, List.map_append,
    List.map_singleton]

theorem elementsOf_of_unended {comment : Text} (unended : ∀ raw ∈ comment.lines, ¬ endMarker <:+: raw) :
    elementsOf comment = Element.ofLines (comment.lines.map Line.readContent) := by
  rw [elementsOf, blockLines_eq_self unended]

namespace Draft

@[simp] theorem add_target (d : Draft) (line : Line.Content) : (d.add line).target = d.target := by
  cases line <;> rfl

@[simp] theorem add_name (d : Draft) (line : Line.Content) : (d.add line).name = d.name := by
  cases line <;> rfl

theorem elements_cons (untagged : line.target? = none) (d : Draft) (lines : List Line.Content) :
    d.elements (line :: lines) = (d.add line).elements lines := by
  cases line with
  | tag s name text => cases untagged
  | begins | continuation | plain | blank => rfl

theorem elements_tagged (tagged : line.target? ≠ none) (d : Draft) (lines : List Line.Content) :
    d.elements (line :: lines) = d.finish :: Element.ofLines (line :: lines) := by
  cases line with
  | tag s name text => rfl
  | begins | continuation | plain | blank => exact absurd rfl tagged

/-- A tag line ends the draft, and what follows is read as if nothing stood above it. -/
theorem elements_append_tagged (tagged : line.target? ≠ none) (d : Draft)
    (lines rest : List Line.Content) :
    d.elements (lines ++ line :: rest) = d.elements lines ++ Element.ofLines (line :: rest) := by
  induction lines generalizing d with
  | nil => exact elements_tagged tagged d rest
  | cons first lines ih =>
    cases first with
    | tag s name text => exact congrArg (d.finish :: ·) (ih _)
    | begins | continuation | plain | blank => exact ih _

/-- Lines without a tag leave a draft a single element of its section. -/
theorem elements_target (untagged : ∀ line ∈ lines, line.target? = none) (d : Draft) :
    ∀ e ∈ d.elements lines, e.target = d.target := by
  induction lines generalizing d with
  | nil =>
    intro e member
    rw [List.mem_singleton.mp member]
    rfl
  | cons line lines ih =>
    have later := ih (fun l member => untagged l (List.mem_cons_of_mem line member)) (d.add line)
    rw [elements_cons (untagged line List.mem_cons_self)]
    rwa [add_target] at later

/-- What a line without a tag adds to is the draft that is open at the end. -/
theorem exists_last (d : Draft) (lines : List Line.Content) :
    ∃ (es : List Element) (last : Draft), d.elements lines = es ++ [last.finish] ∧
      ∀ line : Line.Content, line.target? = none →
        d.elements (lines ++ [line]) = es ++ [(last.add line).finish] := by
  induction lines generalizing d with
  | nil => exact ⟨[], d, rfl, fun line untagged => elements_cons untagged d []⟩
  | cons first lines ih =>
    cases first with
    | tag s name text =>
      obtain ⟨es, last, same, added⟩ := ih (tagged s name text)
      refine ⟨d.finish :: es, last, congrArg (d.finish :: ·) same, fun line untagged => ?_⟩
      exact congrArg (d.finish :: ·) (added line untagged)
    | begins | continuation | plain | blank => exact ih _

end Draft

namespace Element

theorem ofLines_append_tagged (tagged : line.target? ≠ none) (lines rest : List Line.Content) :
    ofLines (lines ++ line :: rest) = ofLines lines ++ ofLines (line :: rest) := by
  cases lines with
  | nil => rfl
  | cons first lines =>
    cases first with
    | tag | begins | continuation | plain | blank => exact Draft.elements_append_tagged tagged _ lines rest

/-- A line without a tag adds to the last element, or to an empty description if it is the first. -/
theorem exists_last (lines : List Line.Content) :
    ∃ (es : List Element) (last : Draft),
      (lines = [] ∧ es = [] ∧ last = Draft.description ∨ ofLines lines = es ++ [last.finish]) ∧
      ∀ line : Line.Content, line.target? = none →
        ofLines (lines ++ [line]) = es ++ [(last.add line).finish] := by
  cases lines with
  | nil =>
    refine ⟨[], Draft.description, .inl ⟨rfl, rfl, rfl⟩, fun line untagged => ?_⟩
    cases line with
    | tag s name text => cases untagged
    | begins | continuation | plain | blank => rfl
  | cons first lines =>
    cases first with
    | tag s name text =>
      obtain ⟨es, last, same, added⟩ := (Draft.tagged s name text).exists_last lines
      exact ⟨es, last, .inr same, added⟩
    | begins text | continuation text | plain text =>
      obtain ⟨es, last, same, added⟩ := (Draft.description.add _).exists_last lines
      exact ⟨es, last, .inr same, added⟩
    | blank =>
      obtain ⟨es, last, same, added⟩ := Draft.description.exists_last lines
      exact ⟨es, last, .inr same, added⟩

theorem ofLines_ne_nil {lines : List Line.Content} (nonempty : lines ≠ []) :
    ofLines lines ≠ [] := by
  obtain ⟨es, draft, ⟨empty, _⟩ | same, _⟩ := exists_last lines
  · exact absurd empty nonempty
  · rw [same]
    exact List.append_ne_nil_of_right_ne_nil es (List.cons_ne_nil _ _)

end Element
end DocComment
