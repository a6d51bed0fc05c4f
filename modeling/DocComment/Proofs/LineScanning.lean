import DocComment.Proofs.Indentation
import Mathlib.Data.List.Chain

/-! Splitting a comment into lines. Writing all breaks alike and then cutting at the line feeds comes to
the same as a single pass over the text. The lines hold every other character, in its place, and reading
them as bytes cannot fail. So a document does not show which breaks stand behind the lines. -/
namespace DocComment

namespace Text

variable {piece rest : Text} {c : Char}

theorem lines_eq_scanLines (text : Text) : lines text = scanLines text := by
  fun_induction scanLines text with
  | case1 => rfl
  | case2 cs ih =>
    rw [← ih, lines, unifyBreaks_crlf, cut_sep, lines]
  | case3 cs alone ih =>
    have single : cs.head? ≠ some '\n' := by
      intro pair
      obtain ⟨tail, same⟩ := List.head?_eq_some_iff.mp pair
      exact alone tail same
    rw [← ih, lines, unifyBreaks_cr single, cut_sep, lines]
  | case4 cs ih =>
    rw [← ih, lines, unifyBreaks_cons (by decide), cut_sep, lines]
  | case5 c cs _ other noFeed ih =>
    rw [← ih, lines, unifyBreaks_cons other, cut_cons noFeed, lines]

theorem flatten_consChar (c : Char) (pieces : List Text) : (consChar c pieces).flatten = c :: pieces.flatten := by
  cases pieces <;> rfl

/-- Apart from the breaks, all characters of a text are in its lines, in their order. -/
theorem flatten_lines (text : Text) : (lines text).flatten = text.filter fun c => c ≠ '\r' ∧ c ≠ '\n' := by
  rw [lines_eq_scanLines]
  fun_induction scanLines text with
  | case1 => rfl
  | case2 cs ih => simpa using ih
  | case3 cs _ ih => simpa using ih
  | case4 cs ih => simpa using ih
  | case5 c cs _ other noFeed ih =>
    rw [flatten_consChar, ih, List.filter_cons_of_pos]
    exact decide_eq_true ⟨other, noFeed⟩

/-- What can stand at the end of a line. -/
inductive Break where
  | feed
  | carriage
  | pair
deriving DecidableEq, Repr

def Break.text : Break → Text
  | .feed => ['\n']
  | .carriage => ['\r']
  | .pair => ['\r', '\n']

/-- Lines with the break behind each. -/
def writeLines (rows : List (Text × Break)) : Text := rows.flatMap fun (line, ending) => line ++ ending.text

/-- No carriage return is followed at once by a line feed of its own. -/
def Separate (rows : List (Text × Break)) : Prop :=
  rows.IsChain fun row next => ¬ (row.2 = .carriage ∧ next = ([], .feed))

instance : DecidablePred Separate := fun rows => inferInstanceAs (Decidable (rows.IsChain _))

theorem scanLines_append_break (oneLine : Layout.OneLine piece) {ending : Break}
    (apart : ending = .carriage → rest.head? ≠ some '\n') :
    scanLines (piece ++ (ending.text ++ rest)) = piece :: scanLines rest := by
  induction piece with
  | nil =>
    cases ending with
    | feed => rfl
    | pair => rfl
    | carriage =>
      have single : ∀ tail, rest = '\n' :: tail → False := by
        rintro tail rfl
        exact apart rfl rfl
      exact scanLines.eq_3 rest single
  | cons c piece ih =>
    obtain ⟨cr, lf⟩ := oneLine c List.mem_cons_self
    have later := ih fun d member => oneLine d (List.mem_cons_of_mem c member)
    rw [List.cons_append, scanLines.eq_5, later]
    · rfl
    · exact fun _ same _ => cr same
    · exact cr
    · exact lf

/-- Rows begin with a line feed only where an empty line ends in one. -/
theorem head?_writeLines {line : Text} {ending : Break} {rows : List (Text × Break)} (oneLine : Layout.OneLine line)
    (starts : (writeLines ((line, ending) :: rows)).head? = some '\n') : (line, ending) = ([], .feed) := by
  cases line with
  | cons c cs =>
    cases starts
    exact absurd rfl (oneLine '\n' List.mem_cons_self).2
  | nil =>
    cases ending with
    | feed => rfl
    | carriage | pair => exact absurd (Option.some.inj starts) (by decide)

/-- Lines are found again whatever breaks are written behind them. -/
theorem lines_writeLines {rows : List (Text × Break)} (oneLine : ∀ row ∈ rows, Layout.OneLine row.1)
    (separate : Separate rows) : (writeLines rows).lines = rows.map Prod.fst := by
  rw [lines_eq_scanLines]
  induction rows with
  | nil => rfl
  | cons row rows ih =>
    obtain ⟨line, ending⟩ := row
    obtain ⟨first, later⟩ := List.forall_mem_cons.mp oneLine
    have rest := ih later separate.of_cons
    have apart : ending = .carriage → (writeLines rows).head? ≠ some '\n' := by
      intro carriage starts
      cases rows with
      | nil => cases starts
      | cons next rows =>
        have empty := head?_writeLines (later next List.mem_cons_self) starts
        exact (List.isChain_cons_cons.mp separate).1 ⟨carriage, empty⟩
    have whole : writeLines ((line, ending) :: rows) = line ++ (ending.text ++ writeLines rows) :=
      List.append_assoc line ending.text (writeLines rows)
    rw [whole, scanLines_append_break first apart, rest]
    rfl

end Text

/-- What the lines of a comment are. -/
structure SplitsInto (comment : Text) (lines : List Text) : Prop where
  scanned : lines = comment.scanLines
  noBreak : ∀ line ∈ lines, '\r' ∉ line ∧ '\n' ∉ line
  complete : lines.flatten = comment.filter fun c => c ≠ '\r' ∧ c ≠ '\n'
  readable : Text.readLines comment.unifyBreaks.utf8 = .ok lines

/-- A comment is split into lines in one pass, without losing anything but the breaks and without any way
to fail. So lines give the same document whatever breaks are written behind them, if only no carriage
return makes a pair with the line feed behind it. -/
theorem comment_splits_in_one_pass :
    (∀ comment : Text, SplitsInto comment comment.lines) ∧
    (∀ (s : Session) (cause : Text), s.render.1 ≠ .error (.unreadable cause)) ∧
    ∀ (m : Markup) (rows others : List (Text × Text.Break)), (∀ row ∈ rows, Layout.OneLine row.1) →
      Text.Separate rows → Text.Separate others → others.map Prod.fst = rows.map Prod.fst →
        (Text.writeLines rows).lines = rows.map Prod.fst ∧
          render m (Text.writeLines others) = render m (Text.writeLines rows) := by
  refine ⟨fun comment => ?_, Session.render_ne_unreadable, ?_⟩
  · exact ⟨Text.lines_eq_scanLines comment, fun line => Text.not_mem_of_mem_lines, Text.flatten_lines comment,
      Text.readLines_unifyBreaks comment⟩
  intro m rows others oneLine separate separate' same
  have oneLine' : ∀ row ∈ others, Layout.OneLine row.1 := by
    intro row member
    have inside : row.1 ∈ rows.map Prod.fst := same ▸ List.mem_map_of_mem member
    obtain ⟨original, given, equal⟩ := List.mem_map.mp inside
    exact equal ▸ oneLine original given
  have first := Text.lines_writeLines oneLine separate
  have second := Text.lines_writeLines oneLine' separate'
  refine ⟨first, ?_⟩
  rw [render_eq_documentOf, render_eq_documentOf, elementsOf, elementsOf, second, first, same]

/-- Breaks of all kinds, empty lines, and a last line that a comment would not need to end. -/
def mixedRows : List (Text × Text.Break) :=
  [("(:~ a".toList, .carriage), ([], .pair), ([], .feed), (" : é".toList, .pair), ([], .carriage), ([], .carriage),
    (" :)".toList, .feed)]

theorem comment_splits_in_one_pass_mixed :
    (∀ row ∈ mixedRows, Layout.OneLine row.1) ∧ Text.Separate mixedRows ∧
    (Text.writeLines mixedRows).lines =
      ["(:~ a".toList, [], [], " : é".toList, [], [], " :)".toList] ∧
    render (.xml none) (Text.writeLines (mixedRows.map fun row => (row.1, .carriage))) =
      render (.xml none) (Text.writeLines mixedRows) := by
  have oneLine : ∀ row ∈ mixedRows, Layout.OneLine row.1 := by decide
  have separate : Text.Separate mixedRows := by decide
  have returns : Text.Separate (mixedRows.map fun row => (row.1, .carriage)) := by decide
  have same : (mixedRows.map fun row => (row.1, Text.Break.carriage)).map Prod.fst = mixedRows.map Prod.fst := by
    decide
  obtain ⟨lines, document⟩ :=
    comment_splits_in_one_pass.2.2 (.xml none) mixedRows _ oneLine separate returns same
  exact ⟨oneLine, separate, lines, document⟩

end DocComment
