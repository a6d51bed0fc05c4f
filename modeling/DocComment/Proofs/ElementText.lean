import DocComment.Block
import DocComment.Proofs.LineBreaks
import DocComment.Proofs.LineReading

/-! What elements are made of: the characters of their texts come from the lines, apart from the
line feeds between these, and their names are names of lines. -/
namespace DocComment

variable {P : Char → Prop} {Q : Text → Prop}

/-- All characters of a text, and the name beside it, are as given. -/
structure Over (P : Char → Prop) (Q : Text → Prop) (name : Option Text) (text : Text) : Prop where
  text : ∀ c ∈ text, P c
  name : ∀ n ∈ name, Q n

namespace Draft

variable {d : Draft}

theorem tagged_over {s : Section} {name : Option Text} {text : Text}
    (h : Over P Q name text) : Over P Q (tagged s name text).name (tagged s name text).text where
  text c inside := h.text c (Text.trim_subset text inside)
  name := h.name

theorem addLine_over (breaks : P '\n') (h : Over P Q d.name d.text) (margin : Nat) {line : Text}
    (chars : ∀ c ∈ line, P c) :
    Over P Q (d.addLine margin line).name (d.addLine margin line).text where
  text c inside := by
    rcases List.mem_append.mp inside with before | added
    · split at before
      · exact absurd before List.not_mem_nil
      · rcases List.mem_append.mp before with old | new
        · exact h.text c old
        · rw [List.mem_singleton.mp new]
          exact breaks
    · exact chars c (Text.dropIndent_subset line margin added)
  name := h.name

theorem add_over (breaks : P '\n') (h : Over P Q d.name d.text) {line : Line.Content}
    (parts : Over P Q line.name? line.text) : Over P Q (d.add line).name (d.add line).text := by
  cases line with
  | begins text | continuation text | plain text => exact addLine_over breaks h _ parts.text
  | tag | blank => exact h

theorem finish_over (h : Over P Q d.name d.text) : Over P Q d.finish.name d.finish.text where
  text c inside := h.text c ((Text.trimEnd_prefix_self d.text).subset inside)
  name := h.name

theorem elements_over (breaks : P '\n') (h : Over P Q d.name d.text) {lines : List Line.Content}
    (parts : ∀ line ∈ lines, Over P Q line.name? line.text) :
    ∀ e ∈ d.elements lines, Over P Q e.name e.text := by
  induction lines generalizing d with
  | nil =>
    intro e member
    rw [List.mem_singleton.mp member]
    exact finish_over h
  | cons line lines ih =>
    have first := parts line List.mem_cons_self
    have rest : ∀ line ∈ lines, Over P Q line.name? line.text := fun l member =>
      parts l (List.mem_cons_of_mem _ member)
    cases line with
    | tag s name text =>
      intro e member
      rcases List.mem_cons.mp member with rfl | later
      · exact finish_over h
      · exact ih (tagged_over first) rest e later
    | begins | continuation | plain | blank => exact ih (add_over breaks h first) rest

end Draft

theorem Element.ofLines_over (breaks : P '\n') {lines : List Line.Content}
    (parts : ∀ line ∈ lines, Over P Q line.name? line.text) :
    ∀ e ∈ ofLines lines, Over P Q e.name e.text := by
  cases lines with
  | nil => exact nofun
  | cons line lines =>
    have first := parts line List.mem_cons_self
    have rest : ∀ line ∈ lines, Over P Q line.name? line.text := fun l member =>
      parts l (List.mem_cons_of_mem _ member)
    have empty : Over P Q Draft.description.name Draft.description.text := ⟨nofun, nofun⟩
    cases line with
    | tag s name text => exact Draft.elements_over breaks (Draft.tagged_over first) rest
    | begins | continuation | plain | blank =>
      exact Draft.elements_over breaks (Draft.add_over breaks empty first) rest

theorem blockLines_subset (raws : List Text) : blockLines raws ⊆ raws := by
  induction raws with
  | nil => exact List.Subset.refl _
  | cons raw raws ih =>
    rw [blockLines]
    split
    · exact List.cons_subset_cons raw (List.nil_subset raws)
    · exact List.cons_subset_cons raw ih

/-- The element holds no carriage return, and no blank in its name. -/
def Element.Clean (e : Element) : Prop :=
  Over (· ≠ '\r') Text.Solid e.name e.text

theorem elementsOf_clean (comment : Text) : ∀ e ∈ elementsOf comment, e.Clean := by
  apply Element.ofLines_over (by decide)
  intro line member
  obtain ⟨raw, inside, rfl⟩ := List.mem_map.mp member
  have absent := (Text.not_mem_of_mem_lines (blockLines_subset _ inside)).1
  refine ⟨?_, fun name found => Line.name?_solid found⟩
  rintro c part rfl
  exact absent (Line.readContent_text_subset raw part)

end DocComment
