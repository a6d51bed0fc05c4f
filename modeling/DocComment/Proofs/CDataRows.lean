import DocComment.Proofs.Assembly

/-! Rows of CDATA sections. Splitting a text at the end markers makes a row of adjacent sections, and that
text is all that can be read from the row. It makes no difference whether lines are split one by one, or
whether blanks are trimmed behind the split text, so an element can be written as its lines come in. -/
namespace DocComment

namespace Xml

/-- A row of CDATA sections without a gap, and the text in it. Each section goes on up to the first end
marker behind its start, and nothing follows the last one. -/
inductive CDataRow : Text → Text → Prop
  | last (body : Text) : (body ++ cdataEnd).indexOf? cdataEnd = some body.length →
      CDataRow (cdataStart ++ (body ++ cdataEnd)) body
  | more (body : Text) {row text : Text} : (body ++ (cdataEnd ++ row)).indexOf? cdataEnd = some body.length →
      CDataRow row text → CDataRow (cdataStart ++ (body ++ (cdataEnd ++ row))) (body ++ text)

variable {body rest input text : Text}

theorem go_of_absent (absent : ¬ cdataEnd <:+: input) : readSections.go 0 input = none := by
  induction input with
  | nil => rfl
  | cons c cs ih =>
    obtain ⟨first, later⟩ := not_or.mp (mt List.infix_cons_iff.mpr absent)
    rw [go_plain first, ih later]
    rfl

/-- Up to the first end marker the characters are text. -/
theorem go_body (first : (body ++ rest).indexOf? cdataEnd = some body.length) :
    readSections.go 0 (body ++ rest) =
      (readSections.go 0 rest).map fun (text, behind) => (body ++ text, behind) := by
  induction body with
  | nil => simp
  | cons c cs ih =>
    have absent : ¬ cdataEnd <+: c :: (cs ++ rest) := by
      simpa using Text.indexOf?_leftmost first (Nat.zero_lt_succ _)
    have later : Text.indexOf? (cs ++ rest) cdataEnd = some cs.length := by
      rw [List.cons_append, Text.indexOf?, if_neg (by rwa [List.isPrefixOf_iff_prefix])] at first
      simpa using first
    rw [List.cons_append, go_plain absent, ih later, Option.map_map]
    rfl

theorem readSections_of_row {row : Text} (h : CDataRow row text) :
    ∃ behind, row = cdataStart ++ behind ∧ readSections behind = some (text, []) := by
  induction h with
  | last body first =>
    have closed : ¬ cdataStart <+: [] := by decide
    have stop := go_stop closed
    rw [List.append_nil] at stop
    refine ⟨_, rfl, ?_⟩
    rw [readSections, go_body first, stop]
    simp
  | more body first _ ih =>
    obtain ⟨behind, rfl, read⟩ := ih
    refine ⟨_, rfl, ?_⟩
    rw [readSections, go_body first, go_gap, ← readSections, read]
    rfl

theorem row_of_readSections (read : readSections input = some (text, [])) : CDataRow (cdataStart ++ input) text := by
  -- Behind each section a shorter row is left to be read.
  induction size : input.length using Nat.strongRecOn generalizing input text with
  | ind size ih =>
    subst size
    rw [readSections] at read
    cases found : input.indexOf? cdataEnd with
    | none =>
      rw [go_of_absent (Text.indexOf?_eq_none found)] at read
      cases read
    | some i =>
      obtain ⟨body, behind, rfl, rfl⟩ := Text.exists_parts_of_indexOf? cdataEnd_ne_nil found
      rw [List.append_assoc] at found read ⊢
      rw [go_body found] at read
      by_cases goesOn : cdataStart <+: behind
      · obtain ⟨row, rfl⟩ := goesOn
        rw [go_gap, ← readSections] at read
        obtain ⟨⟨inner, tail⟩, reads, same⟩ := Option.map_eq_some_iff.mp read
        cases same
        refine .more body found (ih _ ?_ reads rfl)
        simp only [List.length_append]
        have marker : 0 < cdataEnd.length := by decide
        omega
      · rw [go_stop goesOn] at read
        cases read
        rw [List.append_nil] at found
        rw [List.append_nil, List.append_nil]
        exact .last body found

/-- What a row of sections holds is what the reader finds in it, with nothing left behind. -/
theorem cdataRow_iff : CDataRow (cdataStart ++ input) text ↔ readSections input = some (text, []) := by
  refine ⟨fun h => ?_, row_of_readSections⟩
  obtain ⟨behind, same, read⟩ := readSections_of_row h
  rwa [List.append_cancel_left same]

end Xml

namespace Assembler

/-- Adds further lines to the text of an element. -/
def appendLines (a : Assembler) (lines : List Text) : Assembler :=
  lines.foldl (fun a line => (a.append ['\n']).append line) a

/-- An element of a section is open whose text, escaped, stands behind `front` and the start of its CDATA. -/
structure Writing (s : Section) (front text : Text) (a : Assembler) : Prop where
  isOpen : a.isOpen = true
  current : a.current = some s
  held : a.buffers.get s = front ++ Xml.cdataStart ++ Xml.cdataSafe text

variable {m : Markup} {a : Assembler} {s : Section} {front text : Text}

theorem begin_writing (m : Markup) (a : Assembler) (s : Section) (name : Option Text) :
    Writing s (a.buffers.get s ++ m.startTag s.name name) [] (a.begin m s name) where
  isOpen := rfl
  current := rfl
  held := by simp [begin]

namespace Writing

theorem append (h : Writing s front text a) (piece : Text)
    (whole : Xml.cdataSafe (text ++ piece) = Xml.cdataSafe text ++ Xml.cdataSafe piece) :
    Writing s front (text ++ piece) (a.append piece) := by
  rw [append_of_current h.current]
  exact ⟨h.isOpen, h.current, by rw [Buffers.get_append_self, h.held, whole, List.append_assoc]⟩

theorem appendLine (h : Writing s front text a) (line : Text) :
    Writing s front (text ++ '\n' :: line) ((a.append ['\n']).append line) := by
  have breaks := Xml.cdataSafe_append_cons (c := '\n') (by decide) text
  have feed : Xml.cdataSafe (text ++ ['\n']) = Xml.cdataSafe text ++ Xml.cdataSafe ['\n'] := breaks []
  have broken := h.append ['\n'] feed
  have whole : Xml.cdataSafe (text ++ ['\n'] ++ line) = Xml.cdataSafe (text ++ ['\n']) ++ Xml.cdataSafe line := by
    rw [feed, List.append_assoc, List.singleton_append, breaks, List.append_assoc]
    rfl
  have appended := broken.append line whole
  rwa [List.append_assoc] at appended

theorem appendLines (h : Writing s front text a) (lines : List Text) :
    Writing s front (text ++ lines.flatMap ('\n' :: ·)) (a.appendLines lines) := by
  induction lines generalizing text a with
  | nil => simpa [Assembler.appendLines] using h
  | cons line lines ih =>
    have rest := ih (h.appendLine line)
    rwa [List.append_assoc] at rest

theorem close (h : Writing s front text a) : (a.close m).buffers.get s =
    front ++ Xml.cdataStart ++ Xml.cdataSafe text.trimEnd ++ (Xml.cdataEnd ++ m.endTag s.name) := by
  rw [close_of_current h.isOpen h.current, Buffers.get_append_self, Buffers.get_trimEnd_self, h.held,
    Xml.trimEnd_behind_start]

end Writing

end Assembler

open Xml

/-- Splitting at the end markers loses nothing and can be done piece by piece. The sections it makes hold
the text and only that; line breaks and blanks at the end come through as they are, and text does not become
empty. So an element that is opened, gets its lines one by one, each escaped on its own, and is closed with
its blanks trimmed, holds its trimmed text escaped as a whole. -/
theorem splitting_is_exact :
    (∀ s text : Text, CDataRow (cdataStart ++ (cdataSafe s ++ cdataEnd)) text ↔ text = s) ∧
    (∀ s t : Text, cdataSafe (s ++ ['\n'] ++ t) = cdataSafe s ++ ['\n'] ++ cdataSafe t) ∧
    (∀ s : Text, (cdataSafe s).trimEnd = cdataSafe s.trimEnd ∧ (cdataSafe s = [] ↔ s = [])) ∧
    ∀ (m : Markup) (a : Assembler) (s : Section) (name : Option Text) (first : Text) (lines : List Text),
      ((((a.begin m s name).append first).appendLines lines).close m).buffers.get s =
        a.buffers.get s ++ m.startTag s.name name ++ cdataStart ++
          cdataSafe (first ++ lines.flatMap ('\n' :: ·)).trimEnd ++ (cdataEnd ++ m.endTag s.name) := by
  refine ⟨fun s text => ?_, fun s t => ?_, fun s => ⟨trimEnd_cdataSafe s, cdataSafe_eq_nil_iff s⟩, ?_⟩
  · have closed : ¬ cdataStart <+: [] := by decide
    have whole := readSections_cdataSafe s closed
    rw [List.append_nil] at whole
    rw [cdataRow_iff, whole, Option.some.injEq, Prod.mk.injEq]
    exact ⟨fun same => same.1.symm, fun same => ⟨same.symm, rfl⟩⟩
  · rw [List.append_assoc, List.singleton_append, cdataSafe_append_cons (by decide), List.append_assoc]
    rfl
  · intro m a s name first lines
    have started : Assembler.Writing s (a.buffers.get s ++ m.startTag s.name name) first _ :=
      (Assembler.begin_writing m a s name).append first rfl
    exact (started.appendLines lines).close

end DocComment
