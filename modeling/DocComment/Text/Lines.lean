import DocComment.Text.Search

/-! Lines of a text. A line ends at a line feed, a carriage return, or the pair of the two;
what follows the last terminator is a line of its own unless it is empty. -/
namespace DocComment.Text

def consChar (c : Char) : List Text → List Text
  | [] => [[c]]
  | piece :: pieces => (c :: piece) :: pieces

/-- Cuts a text at every `sep`. Each `sep` ends a piece, and a rest without one is a last piece. -/
def cut (sep : Char) : Text → List Text
  | [] => []
  | c :: cs => if c = sep then [] :: cut sep cs else consChar c (cut sep cs)

/-- Writes every line break as a single line feed. -/
def unifyBreaks (text : Text) : Text :=
  (text.replaceAll ['\r', '\n'] ['\n']).replaceChar '\r' ['\n']

def lines (text : Text) : List Text := (unifyBreaks text).cut '\n'

/-- The lines of a text, found in a single pass. A line feed right behind a carriage return ends no
line of its own. -/
def scanLines : Text → List Text
  | [] => []
  | '\r' :: '\n' :: cs => [] :: scanLines cs
  | '\r' :: cs => [] :: scanLines cs
  | '\n' :: cs => [] :: scanLines cs
  | c :: cs => consChar c (scanLines cs)

example : lines "a\r\r\nb\n\nc".toList = [['a'], [], ['b'], [], ['c']] := by decide

@[simp] theorem cut_nil (sep : Char) : cut sep [] = [] := rfl

@[simp] theorem cut_sep (sep : Char) (cs : Text) : cut sep (sep :: cs) = [] :: cut sep cs := by
  simp [cut]

theorem cut_cons {sep c : Char} (h : c ≠ sep) (cs : Text) :
    cut sep (c :: cs) = consChar c (cut sep cs) := by
  simp [cut, h]

/-- A piece without the separator is cut off at the separator that follows it. -/
theorem cut_append_sep {sep : Char} {piece : Text} (h : sep ∉ piece) (rest : Text) :
    cut sep (piece ++ sep :: rest) = piece :: cut sep rest := by
  induction piece with
  | nil => simp
  | cons c cs ih =>
    obtain ⟨head, tail⟩ := not_or.mp (mt List.mem_cons.mpr h)
    rw [List.cons_append, cut_cons (Ne.symm head), ih tail]
    rfl

theorem not_mem_of_mem_cut {sep : Char} {text piece : Text} (h : piece ∈ cut sep text) :
    sep ∉ piece := by
  induction text generalizing piece with
  | nil => simp at h
  | cons c cs ih =>
    by_cases same : c = sep
    · subst same
      rw [cut_sep, List.mem_cons] at h
      rcases h with rfl | h
      · exact List.not_mem_nil
      · exact ih h
    · rw [cut_cons same] at h
      cases pieces : cut sep cs with
      | nil =>
        simp only [pieces, consChar, List.mem_singleton] at h
        subst h
        simpa using Ne.symm same
      | cons first rest =>
        simp only [pieces, consChar, List.mem_cons] at h
        rcases h with rfl | h
        · intro inside
          rcases List.mem_cons.mp inside with rfl | inside
          · exact same rfl
          · exact ih (by rw [pieces]; exact List.mem_cons_self) inside
        · exact ih (by rw [pieces]; exact List.mem_cons_of_mem _ h)

end DocComment.Text
