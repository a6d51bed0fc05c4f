import DocComment.Proofs.Words
import DocComment.Text.Lines

/-! Line breaks: lines hold none, a text without carriage returns is left as it is, and lines that
are written with a line feed behind each are found again. -/
namespace DocComment.Text

variable {text piece word : Text} {c sep : Char}

theorem unifyBreaks_eq_self (absent : '\r' ∉ text) : unifyBreaks text = text := by
  have pair : ¬ ['\r', '\n'] <:+: text := fun inside => absent (inside.subset List.mem_cons_self)
  rw [unifyBreaks, replaceAll_of_not_infix pair, replaceChar_of_not_mem absent]

theorem not_mem_unifyBreaks (text : Text) : '\r' ∉ unifyBreaks text := by
  intro inside
  obtain ⟨d, _, written⟩ := List.mem_flatMap.mp inside
  split at written
  · simp at written
  · next other => exact other (List.mem_singleton.mp written).symm

theorem unifyBreaks_crlf (cs : Text) : unifyBreaks ('\r' :: '\n' :: cs) = '\n' :: unifyBreaks cs := by
  have pair : replaceAll (['\r', '\n'] ++ cs) ['\r', '\n'] ['\n'] =
      ['\n'] ++ replaceAll cs ['\r', '\n'] ['\n'] := replaceAll_word_append (List.cons_ne_nil _ _) cs
  rw [unifyBreaks, show '\r' :: '\n' :: cs = ['\r', '\n'] ++ cs from rfl, pair, replaceChar_append]
  rfl

theorem unifyBreaks_cr {cs : Text} (alone : cs.head? ≠ some '\n') :
    unifyBreaks ('\r' :: cs) = '\n' :: unifyBreaks cs := by
  have absent : ¬ ['\r', '\n'] <+: '\r' :: cs := by
    intro pair
    obtain ⟨rest, same⟩ := (List.cons_prefix_cons.mp pair).2
    exact alone (congrArg List.head? same.symm)
  rw [unifyBreaks, replaceAll_cons absent, ← List.singleton_append, replaceChar_append]
  rfl

theorem unifyBreaks_cons (other : c ≠ '\r') (cs : Text) :
    unifyBreaks (c :: cs) = c :: unifyBreaks cs := by
  have absent : ¬ ['\r', '\n'] <+: c :: cs := fun pair => other (List.cons_prefix_cons.mp pair).1.symm
  rw [unifyBreaks, replaceAll_cons absent, replaceChar_cons_of_ne other]
  rfl

/-- What holds no break is found in the unified text only where it was before. -/
theorem prefix_of_prefix_unifyBreaks (visible : ∀ d ∈ word, d ≠ '\n')
    (found : word <+: unifyBreaks text) : word <+: text := by
  induction word generalizing text with
  | nil => exact List.nil_prefix
  | cons d ds ih =>
    have later := fun e member => visible e (List.mem_cons_of_mem d member)
    have first := visible d List.mem_cons_self
    cases text with
    | nil => exact absurd (List.prefix_nil.mp found) (List.cons_ne_nil d ds)
    | cons c cs =>
      by_cases cr : c = '\r'
      · have breaks : ∃ rest, unifyBreaks (c :: cs) = '\n' :: rest := by
          subst cr
          by_cases pair : cs.head? = some '\n'
          · obtain ⟨tail, rfl⟩ := List.head?_eq_some_iff.mp pair
            exact ⟨_, unifyBreaks_crlf tail⟩
          · exact ⟨_, unifyBreaks_cr pair⟩
        obtain ⟨rest, same⟩ := breaks
        rw [same] at found
        exact absurd (List.cons_prefix_cons.mp found).1 first
      · rw [unifyBreaks_cons cr] at found
        obtain ⟨rfl, tail⟩ := List.cons_prefix_cons.mp found
        exact List.cons_prefix_cons.mpr ⟨rfl, ih later tail⟩

theorem infix_of_infix_unifyBreaks (nonempty : word ≠ []) (visible : ∀ d ∈ word, d ≠ '\n')
    (found : word <:+: unifyBreaks text) : word <:+: text := by
  have absent : '\n' ∉ word := fun inside => visible '\n' inside rfl
  have behind : ∀ rest, word <:+: '\n' :: rest → word <:+: rest := by
    intro rest inside
    rcases (infix_append_cons_iff (s := []) absent nonempty).mp inside with inside | inside
    · exact absurd (List.infix_nil.mp inside) nonempty
    · exact inside
  fun_induction scanLines text with
  | case1 => exact found
  | case2 cs ih =>
    rw [unifyBreaks_crlf] at found
    exact (ih (behind _ found)).trans (List.suffix_append ['\r', '\n'] cs).isInfix
  | case3 cs alone ih =>
    have single : cs.head? ≠ some '\n' := by
      intro pair
      obtain ⟨tail, same⟩ := List.head?_eq_some_iff.mp pair
      exact alone tail same
    rw [unifyBreaks_cr single] at found
    exact (ih (behind _ found)).trans (List.suffix_cons '\r' cs).isInfix
  | case4 cs ih =>
    rw [unifyBreaks_cons (by decide)] at found
    exact (ih (behind _ found)).trans (List.suffix_cons '\n' cs).isInfix
  | case5 c cs _ other _ ih =>
    rw [unifyBreaks_cons other] at found
    rcases List.infix_cons_iff.mp found with starts | inside
    · rw [← unifyBreaks_cons other] at starts
      exact (prefix_of_prefix_unifyBreaks visible starts).isInfix
    · exact (ih inside).trans (List.suffix_cons c cs).isInfix

theorem unifyBreaks_append_word (nonempty : word ≠ []) (visible : ∀ d ∈ word, d ≠ '\r' ∧ d ≠ '\n')
    (s t : Text) : unifyBreaks (s ++ (word ++ t)) = unifyBreaks s ++ (word ++ unifyBreaks t) := by
  induction word generalizing s with
  | nil => contradiction
  | cons d ds ih =>
    obtain ⟨cr, lf⟩ := visible d List.mem_cons_self
    have absent : d ∉ ['\r', '\n'] := by simp [cr, lf]
    have first : unifyBreaks (s ++ d :: (ds ++ t)) = unifyBreaks s ++ d :: unifyBreaks (ds ++ t) := by
      rw [unifyBreaks, replaceAll_append_cons (List.cons_ne_nil _ _) absent, replaceChar_append,
        replaceChar_cons_of_ne cr]
      rfl
    rw [List.cons_append, first]
    cases ds with
    | nil => rfl
    | cons e es =>
      have rest := ih (List.cons_ne_nil e es) (fun f member => visible f (List.mem_cons_of_mem d member)) []
      rw [List.nil_append] at rest
      rw [rest]
      rfl

theorem cut_eq_singleton (nonempty : piece ≠ []) (absent : sep ∉ piece) : cut sep piece = [piece] := by
  induction piece with
  | nil => contradiction
  | cons c cs ih =>
    obtain ⟨differ, absent⟩ := not_or.mp (mt List.mem_cons.mpr absent)
    rw [cut_cons (Ne.symm differ)]
    cases cs with
    | nil => rfl
    | cons d ds => rw [ih (List.cons_ne_nil d ds) absent, consChar]

theorem cut_flatMap {pieces : List Text} (absent : ∀ piece ∈ pieces, sep ∉ piece) (rest : Text) :
    cut sep (pieces.flatMap (· ++ [sep]) ++ rest) = pieces ++ cut sep rest := by
  induction pieces with
  | nil => rfl
  | cons piece pieces ih =>
    have later := ih fun p member => absent p (List.mem_cons_of_mem piece member)
    rw [List.flatMap_cons, List.append_assoc, List.append_assoc, List.singleton_append,
      cut_append_sep (absent piece List.mem_cons_self), later, List.cons_append]

theorem cut_flatMap_append {pieces : List Text} {last : Text} (absent : ∀ piece ∈ pieces, sep ∉ piece)
    (nonempty : last ≠ []) (absentLast : sep ∉ last) :
    cut sep (pieces.flatMap (· ++ [sep]) ++ last) = pieces ++ [last] := by
  rw [cut_flatMap absent, cut_eq_singleton nonempty absentLast]

theorem splitOn_flatMap_append {pieces : List Text} {last : Text} (absent : ∀ piece ∈ pieces, sep ∉ piece)
    (absentLast : sep ∉ last) : (pieces.flatMap (· ++ [sep]) ++ last).splitOn sep = pieces ++ [last] := by
  induction pieces with
  | nil => exact List.splitOn_eq_singleton absentLast
  | cons piece pieces ih =>
    obtain ⟨first, later⟩ := List.forall_mem_cons.mp absent
    rw [List.flatMap_cons, List.append_assoc, List.append_assoc, List.singleton_append,
      List.splitOn_append_cons_self_of_not_mem first, ih later, List.cons_append]

/-- Every text is made of pieces with a separator behind each, and a rest without one. -/
theorem exists_pieces (sep : Char) (text : Text) : ∃ (pieces : List Text) (last : Text),
    (∀ piece ∈ pieces, sep ∉ piece) ∧ sep ∉ last ∧ text = pieces.flatMap (· ++ [sep]) ++ last := by
  induction text with
  | nil => exact ⟨[], [], nofun, List.not_mem_nil, rfl⟩
  | cons c cs ih =>
    obtain ⟨pieces, last, absent, absentLast, rfl⟩ := ih
    by_cases same : c = sep
    · subst same
      refine ⟨[] :: pieces, last, ?_, absentLast, rfl⟩
      exact List.forall_mem_cons.mpr ⟨List.not_mem_nil, absent⟩
    · have other : ∀ piece, sep ∉ piece → sep ∉ c :: piece := by
        intro piece absent
        simp [absent, Ne.symm same]
      cases pieces with
      | nil => exact ⟨[], c :: last, nofun, other last absentLast, rfl⟩
      | cons first rest =>
        obtain ⟨absentFirst, absentRest⟩ := List.forall_mem_cons.mp absent
        refine ⟨(c :: first) :: rest, last, ?_, absentLast, rfl⟩
        exact List.forall_mem_cons.mpr ⟨other first absentFirst, absentRest⟩

theorem not_mem_of_mem_splitOn (member : piece ∈ text.splitOn sep) : sep ∉ piece := by
  obtain ⟨pieces, last, absent, absentLast, rfl⟩ := exists_pieces sep text
  rw [splitOn_flatMap_append absent absentLast] at member
  rcases List.mem_append.mp member with member | member
  · exact absent piece member
  · rwa [List.mem_singleton.mp member]

/-- Whether an empty rest counts as a piece does not matter to those that are not empty. -/
theorem filter_cut (sep : Char) (text : Text) :
    (text.cut sep).filter (· ≠ []) = (text.splitOn sep).filter (· ≠ []) := by
  obtain ⟨pieces, last, absent, absentLast, rfl⟩ := exists_pieces sep text
  rw [splitOn_flatMap_append absent absentLast]
  by_cases empty : last = []
  · rw [empty, cut_flatMap absent, cut_nil, List.filter_append, List.filter_append]
    rfl
  · rw [cut_flatMap_append absent empty absentLast]

/-- A text without the separator that ends a text ends what follows the last separator. -/
theorem suffix_of_suffix_pieces {pieces : List Text} {ending last : Text} (absent : sep ∉ ending)
    (ends : ending <:+ pieces.flatMap (· ++ [sep]) ++ last) : ending <:+ last := by
  rcases List.suffix_or_suffix_of_suffix ends (List.suffix_append _ last) with within | ⟨front, rfl⟩
  · exact within
  obtain ⟨before, whole⟩ := ends
  rw [← List.append_assoc] at whole
  have head := List.append_cancel_right whole
  rcases List.eq_nil_or_concat front with rfl | ⟨start, c, rfl⟩
  · exact List.suffix_rfl
  rcases List.eq_nil_or_concat pieces with rfl | ⟨others, piece, rfl⟩
  · simp at head
  · have same := congrArg List.getLast? head
    simp only [List.concat_eq_append, List.flatMap_append, List.flatMap_singleton, ← List.append_assoc,
      List.getLast?_concat, Option.some.injEq] at same
    simp [same] at absent

theorem infix_of_mem_pieces {pieces : List Text} (member : piece ∈ pieces) (last : Text) :
    piece <:+: pieces.flatMap (· ++ [sep]) ++ last := by
  obtain ⟨before, behind, rfl⟩ := List.append_of_mem member
  rw [List.flatMap_append, List.flatMap_cons]
  simp only [List.append_assoc]
  exact (List.prefix_append piece _).isInfix.trans (List.suffix_append _ _).isInfix

theorem infix_of_mem_cut (found : piece ∈ cut sep text) : piece <:+: text := by
  obtain ⟨pieces, last, absent, absentLast, rfl⟩ := exists_pieces sep text
  rw [cut_flatMap absent, List.mem_append] at found
  rcases found with member | rest
  · exact infix_of_mem_pieces member last
  · by_cases empty : last = []
    · rw [empty] at rest
      exact absurd rest List.not_mem_nil
    · rw [cut_eq_singleton empty absentLast, List.mem_singleton] at rest
      rw [rest]
      exact (List.suffix_append _ last).isInfix

theorem not_mem_of_mem_lines (found : piece ∈ lines text) : '\r' ∉ piece ∧ '\n' ∉ piece :=
  ⟨fun inside => not_mem_unifyBreaks text ((infix_of_mem_cut found).subset inside),
    not_mem_of_mem_cut found⟩

/-- What holds no break and is found in a line was found in the text. -/
theorem infix_of_infix_line (nonempty : word ≠ []) (visible : ∀ d ∈ word, d ≠ '\n')
    (found : piece ∈ lines text) (inside : word <:+: piece) : word <:+: text :=
  infix_of_infix_unifyBreaks nonempty visible (inside.trans (infix_of_mem_cut found))

/-- Up to a word without breaks, the lines of a text do not depend on what stands behind the word. -/
theorem lines_append_word (nonempty : word ≠ []) (visible : ∀ d ∈ word, d ≠ '\r' ∧ d ≠ '\n')
    (s t : Text) : ∃ (before : List Text) (front behind : Text) (rest : List Text),
      unifyBreaks s = before.flatMap (· ++ ['\n']) ++ front ∧
      lines (s ++ word) = before ++ [front ++ word] ∧
      lines (s ++ (word ++ t)) = before ++ (front ++ (word ++ behind)) :: rest := by
  obtain ⟨before, front, absent, absentFront, same⟩ := exists_pieces '\n' (unifyBreaks s)
  obtain ⟨more, last, absentMore, absentLast, tail⟩ := exists_pieces '\n' (unifyBreaks t)
  have absentWord : '\n' ∉ word := fun inside => (visible '\n' inside).2 rfl
  have closing : ∀ piece, '\n' ∉ piece → '\n' ∉ front ++ (word ++ piece) := by
    intro piece absentPiece
    simp only [List.mem_append, not_or]
    exact ⟨absentFront, absentWord, absentPiece⟩
  have filled : ∀ piece, front ++ (word ++ piece) ≠ [] := by
    intro piece empty
    exact nonempty (List.append_eq_nil_iff.mp (List.append_eq_nil_iff.mp empty).2).1
  have short : lines (s ++ word) = before ++ [front ++ word] := by
    have whole := unifyBreaks_append_word nonempty visible s []
    rw [show unifyBreaks [] = [] from rfl, List.append_nil] at whole
    rw [lines, whole, same, List.append_assoc, cut_flatMap absent, ← List.append_nil word,
      cut_eq_singleton (filled []) (closing [] List.not_mem_nil)]
  have long : lines (s ++ (word ++ t)) =
      before ++ cut '\n' (front ++ (word ++ (more.flatMap (· ++ ['\n']) ++ last))) := by
    rw [lines, unifyBreaks_append_word nonempty visible, same, tail, List.append_assoc,
      cut_flatMap absent]
  cases more with
  | nil =>
    rw [List.flatMap_nil, List.nil_append, cut_eq_singleton (filled last) (closing last absentLast)] at long
    exact ⟨before, front, last, [], same, short, long⟩
  | cons first more =>
    have parts : front ++ (word ++ ((first :: more).flatMap (· ++ ['\n']) ++ last)) =
        front ++ (word ++ first) ++ '\n' :: (more.flatMap (· ++ ['\n']) ++ last) := by
      simp only [List.flatMap_cons, List.append_assoc, List.cons_append, List.nil_append]
    rw [parts, cut_append_sep (closing first (absentMore first List.mem_cons_self))] at long
    exact ⟨before, front, first, _, same, short, long⟩

end DocComment.Text
