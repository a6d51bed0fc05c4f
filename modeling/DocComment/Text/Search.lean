/-! Text as a list of characters, with searching and replacing by whole words.
All positions and lengths count characters. -/
namespace DocComment

/-- A sequence of Unicode scalar values. -/
abbrev Text := List Char

namespace Text

/-- The position of the leftmost occurrence of `word`. -/
def indexOf? : Text → Text → Option Nat
  | [], word => if word.isEmpty then some 0 else none
  | c :: cs, word =>
    if word.isPrefixOf (c :: cs) then some 0 else (indexOf? cs word).map (· + 1)

/-- The rest of a text behind the word it starts with. -/
def after? (word text : Text) : Option Text :=
  if word.isPrefixOf text then some (text.drop word.length) else none

/-- Replaces every occurrence of a non-empty `word`, taken from the left and without overlap. -/
def replaceAll (text word new : Text) : Text := go 0 text
where
  /-- Replaces in what follows the next `skip` characters, which belong to an occurrence already
  replaced. -/
  go : Nat → Text → Text
    | _, [] => []
    | skip + 1, _ :: cs => go skip cs
    | 0, c :: cs =>
      if word.isPrefixOf (c :: cs) then new ++ go (word.length - 1) cs else c :: go 0 cs

def replaceChar (text : Text) (old : Char) (new : Text) : Text :=
  text.flatMap fun c => if c = old then new else [c]

theorem isPrefix_drop_of_indexOf? {text word : Text} {i : Nat} (h : text.indexOf? word = some i) :
    word <+: text.drop i := by
  induction text generalizing i with
  | nil =>
    cases word with
    | nil => exact List.nil_prefix
    | cons => simp [indexOf?] at h
  | cons c cs ih =>
    simp only [indexOf?] at h
    split at h
    · next found =>
      cases h
      exact List.isPrefixOf_iff_prefix.mp found
    · obtain ⟨j, hj, rfl⟩ := Option.map_eq_some_iff.mp h
      exact ih hj

/-- Nothing to the left of the reported position starts an occurrence. -/
theorem indexOf?_leftmost {text word : Text} {i j : Nat} (h : text.indexOf? word = some i)
    (hj : j < i) : ¬ word <+: text.drop j := by
  induction text generalizing i j with
  | nil =>
    cases word with
    | nil =>
      simp only [indexOf?, List.isEmpty_nil, if_true, Option.some.injEq] at h
      omega
    | cons => simp [indexOf?] at h
  | cons c cs ih =>
    simp only [indexOf?] at h
    split at h
    · cases h
      omega
    · next absent =>
      obtain ⟨k, hk, rfl⟩ := Option.map_eq_some_iff.mp h
      cases j with
      | zero => simpa [List.isPrefixOf_iff_prefix] using absent
      | succ j => exact ih hk (by omega)

theorem indexOf?_eq_none {text word : Text} (h : text.indexOf? word = none) : ¬ word <:+: text := by
  induction text with
  | nil =>
    cases word with
    | nil => simp [indexOf?] at h
    | cons => simp
  | cons c cs ih =>
    simp only [indexOf?] at h
    split at h
    · cases h
    · next absent =>
      rw [List.infix_cons_iff]
      rintro (starts | inside)
      · exact absent (List.isPrefixOf_iff_prefix.mpr starts)
      · exact ih (Option.map_eq_none_iff.mp h) inside

theorem after?_eq_some_iff {word text rest : Text} :
    after? word text = some rest ↔ text = word ++ rest := by
  simp only [after?, List.isPrefixOf_iff_prefix]
  constructor
  · intro h
    split at h
    · next starts =>
      obtain ⟨t, rfl⟩ := starts
      simpa using h
    · contradiction
  · rintro rfl
    simp

@[simp] theorem after?_append (word rest : Text) : after? word (word ++ rest) = some rest :=
  after?_eq_some_iff.mpr rfl

@[simp] theorem replaceChar_nil (old : Char) (new : Text) : replaceChar [] old new = [] := rfl

theorem replaceChar_of_ne {c old : Char} (h : c ≠ old) (new : Text) :
    replaceChar [c] old new = [c] := by
  simp [replaceChar, h]

@[simp] theorem replaceChar_append (s t : Text) (old : Char) (new : Text) :
    replaceChar (s ++ t) old new = replaceChar s old new ++ replaceChar t old new :=
  List.flatMap_append

end Text
end DocComment
