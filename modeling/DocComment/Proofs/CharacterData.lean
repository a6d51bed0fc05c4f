import DocComment.Proofs.Trimming
import DocComment.Proofs.Words
import DocComment.Xml.CData

/-! Character data: what splitting at the end markers keeps of a text, and reading it back. The text
put in place of a marker begins and ends as the marker does, so neither the ends of a text nor what
stands next to a marker can form a new one. -/
namespace DocComment.Xml

theorem cdataEnd_ne_nil : cdataEnd ≠ [] := by decide

@[simp] theorem cdataSafe_nil : cdataSafe [] = [] := rfl

theorem cdataEnd_eq : cdataEnd = [']', ']', '>'] := by decide

/-- The marker is spread over two sections: two brackets, the gap, the angle. -/
theorem cdataSafe_marker (rest : Text) : cdataSafe (cdataEnd ++ rest) =
    ']' :: ']' :: (cdataEnd ++ (cdataStart ++ '>' :: cdataSafe rest)) := by
  have gap : "]]]]><![CDATA[>".toList = ']' :: ']' :: (cdataEnd ++ (cdataStart ++ ['>'])) := by decide
  rw [cdataSafe, Text.replaceAll_word_append cdataEnd_ne_nil rest, gap]
  simp only [List.cons_append, List.append_assoc, List.nil_append]
  rfl

theorem cdataSafe_cons {c : Char} {cs : Text} (absent : ¬ cdataEnd <+: c :: cs) :
    cdataSafe (c :: cs) = c :: cdataSafe cs :=
  Text.replaceAll_cons absent

theorem cdataSafe_append_cons {c : Char} (absent : c ∉ cdataEnd) (s t : Text) :
    cdataSafe (s ++ c :: t) = cdataSafe s ++ c :: cdataSafe t :=
  Text.replaceAll_append_cons cdataEnd_ne_nil absent s t

theorem head?_cdataSafe (s : Text) : (cdataSafe s).head? = s.head? := by
  induction s using Text.replaceInduction cdataEnd_ne_nil with
  | nil => rfl
  | found rest ih => rw [cdataSafe_marker, cdataEnd_eq]; rfl
  | other c cs absent ih => rw [cdataSafe_cons absent]; rfl

theorem getLast?_cdataSafe (s : Text) : (cdataSafe s).getLast? = s.getLast? := by
  induction s using Text.replaceInduction cdataEnd_ne_nil with
  | nil => rfl
  | found rest ih =>
    rw [cdataSafe_marker]
    simp only [List.getLast?_cons, List.getLast?_append, ih]
    cases rest.getLast? <;> simp [cdataEnd_eq]
  | other c cs absent ih =>
    rw [cdataSafe_cons absent, List.getLast?_cons, List.getLast?_cons, ih]

theorem cdataSafe_eq_nil_iff (s : Text) : cdataSafe s = [] ↔ s = [] := by
  rw [← List.head?_eq_none_iff, head?_cdataSafe, List.head?_eq_none_iff]

private theorem not_mem_cdataEnd {c : Char} (blank : isBlank c = true) : c ∉ cdataEnd := by
  intro member
  have solid : ∀ d ∈ cdataEnd, isBlank d = false := by decide
  simp [solid c member] at blank

theorem cdataSafe_append_blanks (s : Text) {blanks : Text} (h : ∀ c ∈ blanks, isBlank c = true) :
    cdataSafe (s ++ blanks) = cdataSafe s ++ blanks := by
  induction blanks generalizing s with
  | nil => simp
  | cons c cs ih =>
    have absent := not_mem_cdataEnd (h c List.mem_cons_self)
    have rest := ih [] fun d member => h d (List.mem_cons_of_mem c member)
    rw [cdataSafe_append_cons absent]
    exact congrArg (cdataSafe s ++ c :: ·) rest

/-- Blanks are neither part of a marker nor of what is put in its place, so it does not matter
whether a text is trimmed before or after. -/
theorem trimEnd_cdataSafe (s : Text) : (cdataSafe s).trimEnd = cdataSafe s.trimEnd := by
  obtain ⟨blanks, allBlank, parts⟩ := Text.exists_blanks_trimEnd s
  have trimmed : (cdataSafe s.trimEnd).trimEnd = cdataSafe s.trimEnd := by
    apply Text.trimEnd_eq_self
    intro c last
    exact Text.getLast?_trimEnd ((getLast?_cdataSafe s.trimEnd).symm.trans last)
  calc (cdataSafe s).trimEnd = (cdataSafe s.trimEnd ++ blanks).trimEnd := by
        conv_lhs => rw [parts, cdataSafe_append_blanks _ allBlank]
    _ = (cdataSafe s.trimEnd).trimEnd := Text.trimEnd_append_blanks _ allBlank
    _ = cdataSafe s.trimEnd := trimmed

/-- Trimming does not go beyond the start of a section: the bracket at its end is no blank. -/
theorem trimEnd_behind_start (front text : Text) :
    (front ++ cdataStart ++ cdataSafe text).trimEnd = front ++ cdataStart ++ cdataSafe text.trimEnd := by
  have bracket : cdataStart = "<![CDATA".toList ++ ['['] := by decide
  have solid : isBlank '[' = false := by decide
  rw [bracket, ← List.append_assoc, List.append_assoc, List.singleton_append, Text.trimEnd_append_solid solid,
    trimEnd_cdataSafe, List.append_assoc, List.append_assoc, List.append_assoc]
  rfl

/-- The tail of a marker behind safe text was there before. -/
private theorem tail_prefix {s rest : Text} (starts : [']', '>'] <+: cdataSafe s ++ cdataEnd ++ rest) :
    [']', '>'] <+: s := by
  induction s using Text.replaceInduction cdataEnd_ne_nil with
  | nil => simp [cdataEnd_eq] at starts
  | found s ih => simp [cdataSafe_marker] at starts
  | other c cs absent ih =>
    rw [cdataSafe_cons absent, List.cons_append, List.cons_append, List.cons_prefix_cons] at starts
    obtain ⟨rfl, angle⟩ := starts
    have next := head?_cdataSafe cs
    cases cs with
    | nil => simp [cdataEnd_eq] at angle
    | cons d ds =>
      obtain ⟨tail, same⟩ := List.head?_eq_some_iff.mp next
      rw [same] at angle
      simpa using angle

theorem go_plain {c : Char} {cs : Text} (absent : ¬ cdataEnd <+: c :: cs) :
    readSections.go 0 (c :: cs) =
      (readSections.go 0 cs).map fun (text, rest) => (c :: text, rest) := by
  have plain : Text.after? cdataEnd (c :: cs) = none := by
    simpa [Text.after?, List.isPrefixOf_iff_prefix] using absent
  rw [readSections.go, plain]

theorem go_gap (rest : Text) :
    readSections.go 0 (cdataEnd ++ (cdataStart ++ rest)) = readSections.go 0 rest := rfl

theorem go_stop {rest : Text} (closed : ¬ cdataStart <+: rest) :
    readSections.go 0 (cdataEnd ++ rest) = some ([], rest) := by
  have stop : cdataStart.isPrefixOf rest = false := by
    rw [Bool.eq_false_iff, ne_eq, List.isPrefixOf_iff_prefix]
    exact closed
  have ends := Text.after?_append cdataEnd rest
  have first : cdataEnd ++ rest = ']' :: (']' :: '>' :: rest) := by rw [cdataEnd_eq]; rfl
  rw [first] at ends ⊢
  rw [readSections.go, ends]
  simp [stop]

/-- Safe text between the marks of a section is read back, through all the sections it makes. -/
theorem readSections_cdataSafe (s : Text) {rest : Text} (closed : ¬ cdataStart <+: rest) :
    readSections (cdataSafe s ++ cdataEnd ++ rest) = some (s, rest) := by
  rw [readSections]
  induction s using Text.replaceInduction cdataEnd_ne_nil with
  | nil => exact go_stop closed
  | found s ih =>
    have bracket : ∀ t, ¬ cdataEnd <+: ']' :: (cdataEnd ++ t) := by simp [cdataEnd_eq]
    have brackets : ∀ t, ¬ cdataEnd <+: ']' :: ']' :: (cdataEnd ++ t) := by simp [cdataEnd_eq]
    have angle : ∀ t, ¬ cdataEnd <+: '>' :: t := by simp [cdataEnd_eq]
    simp only [cdataSafe_marker, List.cons_append, List.append_assoc] at ih ⊢
    rw [go_plain (brackets _), go_plain (bracket _), go_gap, go_plain (angle _), ih, cdataEnd_eq]
    rfl
  | other c cs absent ih =>
    have first : ¬ cdataEnd <+: c :: (cdataSafe cs ++ cdataEnd ++ rest) := by
      intro starts
      obtain ⟨rfl, tail⟩ := List.cons_prefix_cons.mp starts
      exact absent (List.cons_prefix_cons.mpr ⟨rfl, tail_prefix tail⟩)
    rw [cdataSafe_cons absent, List.cons_append, List.cons_append, go_plain first, ih]
    rfl

end DocComment.Xml
