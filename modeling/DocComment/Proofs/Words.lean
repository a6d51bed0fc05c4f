import DocComment.Text.Search
import Mathlib.Data.List.Infix

/-! Words in texts: where an occurrence can lie in a text that is put together from parts, and what
a replacement leaves alone. A character that a word does not hold separates its occurrences. -/
namespace DocComment.Text

/-- The characters of a text are checked one by one, and not all that there are. -/
instance decidableForallMem (text : Text) (p : Char → Prop) [DecidablePred p] :
    Decidable (∀ c ∈ text, p c) := List.decidableBAll p text

instance decidableForallFound (found : Option Char) (p : Char → Prop) [DecidablePred p] :
    Decidable (∀ c ∈ found, p c) := Option.decidableForallMem found

variable {word new s t text front rest : Text} {c sep : Char}

theorem prefix_append_cons_iff (absent : sep ∉ word) : word <+: s ++ sep :: t ↔ word <+: s := by
  constructor
  · rintro ⟨rest, same⟩
    rcases List.append_eq_append_iff.mp same with ⟨more, rfl, _⟩ | ⟨more, rfl, tail⟩
    · exact List.prefix_append word more
    · cases more with
      | nil => simp
      | cons d more =>
        obtain ⟨rfl, _⟩ := List.cons.inj tail
        simp at absent
  · intro starts
    exact starts.trans (List.prefix_append s _)

theorem infix_append_cons_iff (absent : sep ∉ word) (nonempty : word ≠ []) :
    word <:+: s ++ sep :: t ↔ word <:+: s ∨ word <:+: t := by
  induction s with
  | nil =>
    have first : ¬ word <+: sep :: t := by
      intro starts
      exact nonempty (List.prefix_nil.mp ((prefix_append_cons_iff (s := []) absent).mp starts))
    simp [List.infix_cons_iff, first, nonempty]
  | cons c s ih =>
    have first := prefix_append_cons_iff (s := c :: s) (t := t) absent
    rw [List.cons_append] at first ⊢
    rw [List.infix_cons_iff, List.infix_cons_iff, first, ih, or_assoc]

/-- An occurrence cannot begin in a part that lacks the first character of the word. -/
theorem infix_append_iff (absent : c ∉ s) : c :: word <:+: s ++ t ↔ c :: word <:+: t := by
  induction s with
  | nil => rfl
  | cons d s ih =>
    obtain ⟨differ, absent⟩ := not_or.mp (mt List.mem_cons.mpr absent)
    rw [List.cons_append, List.infix_cons_iff, ih absent, List.cons_prefix_cons]
    simp [differ]

theorem indexOf?_eq_none_iff : text.indexOf? word = none ↔ ¬ word <:+: text := by
  refine ⟨indexOf?_eq_none, fun absent => ?_⟩
  cases found : text.indexOf? word with
  | none => rfl
  | some i =>
    have inside := (isPrefix_drop_of_indexOf? found).isInfix.trans (List.drop_suffix i text).isInfix
    exact absurd inside absent

theorem indexOf?_isSome_iff : (text.indexOf? word).isSome = true ↔ word <:+: text := by
  rw [Option.isSome_iff_ne_none, ne_eq, indexOf?_eq_none_iff, not_not]

theorem indexOf?_append (absent : c ∉ s) (starts : c :: word <+: t) :
    (s ++ t).indexOf? (c :: word) = some s.length := by
  induction s with
  | nil =>
    obtain ⟨rest, rfl⟩ := starts
    simp [indexOf?, List.isPrefixOf_iff_prefix]
  | cons d s ih =>
    obtain ⟨differ, absent⟩ := not_or.mp (mt List.mem_cons.mpr absent)
    have first : (c :: word).isPrefixOf (d :: (s ++ t)) = false := by
      simp [List.isPrefixOf, differ]
    rw [List.cons_append, indexOf?, first, ih absent]
    rfl

/-- The leftmost occurrence around a separator lies in front of it, if there is any. -/
theorem indexOf?_append_cons (absent : sep ∉ word) (nonempty : word ≠ []) :
    (s ++ sep :: t).indexOf? word =
      (s.indexOf? word).or ((t.indexOf? word).map (· + (s.length + 1))) := by
  induction s with
  | nil =>
    have first : word.isPrefixOf (sep :: t) = false := by
      rw [Bool.eq_false_iff, ne_eq, List.isPrefixOf_iff_prefix]
      intro starts
      exact nonempty (List.prefix_nil.mp ((prefix_append_cons_iff (s := []) absent).mp starts))
    have atEnd : indexOf? [] word = none := by
      rw [indexOf?_eq_none_iff, List.infix_nil]
      exact nonempty
    rw [List.nil_append, atEnd, Option.none_or, indexOf?.eq_2, first]
    rfl
  | cons c s ih =>
    have starts := prefix_append_cons_iff (s := c :: s) (t := t) absent
    rw [← List.isPrefixOf_iff_prefix, ← List.isPrefixOf_iff_prefix, ← Bool.eq_iff_iff] at starts
    rw [List.cons_append] at starts ⊢
    rw [indexOf?, indexOf?, starts, ih]
    split
    · rfl
    · rw [Option.map_or, Option.map_map]
      rfl

/-- An occurrence that fits into the front part is the leftmost one whatever follows. -/
theorem indexOf?_append_of_fits {i : Nat} (fits : i + word.length ≤ front.length) (rest : Text) :
    (front ++ rest).indexOf? word = some i ↔ front.indexOf? word = some i := by
  induction front generalizing i with
  | nil =>
    obtain ⟨rfl, empty⟩ := Nat.add_eq_zero_iff.mp (Nat.le_zero.mp fits)
    rw [List.length_eq_zero_iff.mp empty]
    cases rest <;> exact Iff.rfl
  | cons c front ih =>
    have start : word <+: c :: (front ++ rest) ↔ word <+: c :: front := by
      refine ⟨fun starts => ?_, fun starts => starts.trans (List.prefix_append (c :: front) rest)⟩
      exact List.prefix_of_prefix_length_le starts (List.prefix_append (c :: front) rest) (by omega)
    rw [← List.isPrefixOf_iff_prefix, ← List.isPrefixOf_iff_prefix, ← Bool.eq_iff_iff] at start
    rw [List.cons_append, indexOf?, indexOf?, start]
    split
    · exact Iff.rfl
    · cases i with
      | zero => simp
      | succ i =>
        rw [List.length_cons] at fits
        simpa using ih (by omega)

theorem exists_parts_of_indexOf? {i : Nat} (nonempty : word ≠ []) (found : text.indexOf? word = some i) :
    ∃ before behind, text = before ++ word ++ behind ∧ before.length = i := by
  obtain ⟨behind, same⟩ := isPrefix_drop_of_indexOf? found
  refine ⟨text.take i, behind, by rw [List.append_assoc, same, List.take_append_drop], ?_⟩
  have size := congrArg List.length same
  have positive := List.length_pos_iff.mpr nonempty
  rw [List.length_append, List.length_drop] at size
  rw [List.length_take]
  omega

@[simp] theorem replaceAll_nil : replaceAll [] word new = [] := by simp [replaceAll, replaceAll.go]

private theorem replaceAll_go_append (skipped rest : Text) :
    replaceAll.go word new skipped.length (skipped ++ rest) = replaceAll.go word new 0 rest := by
  induction skipped with
  | nil => rfl
  | cons c cs ih => simpa [replaceAll.go] using ih

theorem replaceAll_word_append (nonempty : word ≠ []) (rest : Text) :
    replaceAll (word ++ rest) word new = new ++ replaceAll rest word new := by
  cases word with
  | nil => contradiction
  | cons c cs =>
    have starts : (c :: cs).isPrefixOf (c :: (cs ++ rest)) = true :=
      List.isPrefixOf_iff_prefix.mpr (List.prefix_append (c :: cs) rest)
    simp only [replaceAll, List.cons_append, replaceAll.go, starts, if_true, List.length_cons,
      Nat.add_sub_cancel, replaceAll_go_append]

theorem replaceAll_cons (absent : ¬ word <+: c :: text) :
    replaceAll (c :: text) word new = c :: replaceAll text word new := by
  have first : word.isPrefixOf (c :: text) = false := by
    rw [Bool.eq_false_iff, ne_eq, List.isPrefixOf_iff_prefix]
    exact absent
  simp [replaceAll, replaceAll.go, first]

/-- Replacing goes through a text either by a whole word or by a character that starts none. -/
@[elab_as_elim]
theorem replaceInduction (nonempty : word ≠ []) {motive : Text → Prop} (nil : motive [])
    (found : ∀ rest, motive rest → motive (word ++ rest))
    (other : ∀ c cs, ¬ word <+: c :: cs → motive cs → motive (c :: cs)) (text : Text) :
    motive text := by
  induction size : text.length using Nat.strongRecOn generalizing text with
  | ind size ih =>
    subst size
    cases text with
    | nil => exact nil
    | cons c cs =>
      by_cases starts : word <+: c :: cs
      · obtain ⟨rest, same⟩ := starts
        have shorter : rest.length < (c :: cs).length := by
          have positive := List.length_pos_iff.mpr nonempty
          rw [← same, List.length_append]
          omega
        rw [← same]
        exact found rest (ih _ shorter rest rfl)
      · exact other c cs starts (ih _ (by simp) cs rfl)

/-- No occurrence reaches over a separator, so the two sides are replaced on their own. -/
theorem replaceAll_append_cons (nonempty : word ≠ []) (absent : sep ∉ word) (s t : Text) :
    replaceAll (s ++ sep :: t) word new =
      replaceAll s word new ++ sep :: replaceAll t word new := by
  induction s using replaceInduction nonempty with
  | nil =>
    have first : ¬ word <+: sep :: t := by
      intro starts
      exact nonempty (List.prefix_nil.mp ((prefix_append_cons_iff (s := []) absent).mp starts))
    rw [List.nil_append, replaceAll_cons first, replaceAll_nil, List.nil_append]
  | found rest ih =>
    rw [List.append_assoc, replaceAll_word_append nonempty, ih, replaceAll_word_append nonempty,
      List.append_assoc]
  | other c cs starts ih =>
    have first := mt (prefix_append_cons_iff (s := c :: cs) (t := t) absent).mp starts
    rw [List.cons_append] at first ⊢
    rw [replaceAll_cons first, ih, replaceAll_cons starts, List.cons_append]

theorem replaceAll_of_not_infix (absent : ¬ word <:+: text) : replaceAll text word new = text := by
  induction text with
  | nil => exact replaceAll_nil
  | cons c cs ih =>
    obtain ⟨first, later⟩ := not_or.mp (mt List.infix_cons_iff.mpr absent)
    rw [replaceAll_cons first, ih later]

theorem mem_replaceAll (nonempty : word ≠ []) (h : c ∈ replaceAll text word new) :
    c ∈ text ∨ c ∈ new := by
  induction text using replaceInduction nonempty with
  | nil => simp at h
  | found rest ih =>
    rw [replaceAll_word_append nonempty, List.mem_append] at h
    rcases h with inside | later
    · exact .inr inside
    · exact (ih later).imp_left (List.mem_append_right word)
  | other d cs starts ih =>
    rw [replaceAll_cons starts, List.mem_cons] at h
    rcases h with rfl | later
    · exact .inl List.mem_cons_self
    · exact (ih later).imp_left (List.mem_cons_of_mem d)

theorem replaceChar_cons_of_ne {d : Char} (differ : d ≠ c) (text : Text) :
    replaceChar (d :: text) c new = d :: replaceChar text c new := by
  rw [← List.singleton_append, replaceChar_append, replaceChar_of_ne differ, List.singleton_append]

theorem replaceChar_of_not_mem (absent : c ∉ text) : replaceChar text c new = text := by
  induction text with
  | nil => rfl
  | cons d cs ih =>
    obtain ⟨differ, absent⟩ := not_or.mp (mt List.mem_cons.mpr absent)
    rw [replaceChar_cons_of_ne (Ne.symm differ), ih absent]

end DocComment.Text
