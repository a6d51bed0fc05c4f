import DocComment.Text.Search

/-! Attribute values. The four characters that cannot stand in a quoted value are written as
entities. The ampersand goes first, so that the entities of the other three are left alone. -/
namespace DocComment.Xml

def escape (text : Text) : Text :=
  (((text.replaceChar '&' "&amp;".toList).replaceChar '<' "&lt;".toList).replaceChar
    '>' "&gt;".toList).replaceChar '"' "&quot;".toList

def entity (c : Char) : Text :=
  if c = '&' then "&amp;".toList
  else if c = '<' then "&lt;".toList
  else if c = '>' then "&gt;".toList
  else if c = '"' then "&quot;".toList
  else [c]

def entities : List (Text × Char) :=
  [("&amp;".toList, '&'), ("&lt;".toList, '<'), ("&gt;".toList, '>'), ("&quot;".toList, '"')]

/-- Reads a value back, from the left. -/
def unescape (text : Text) : Text := go 0 text
where
  /-- The next `skip` characters belong to an entity that is already read. -/
  go : Nat → Text → Text
    | _, [] => []
    | skip + 1, _ :: cs => go skip cs
    | 0, c :: cs =>
      match entities.find? fun entity => entity.1.isPrefixOf (c :: cs) with
      | some (word, d) => d :: go (word.length - 1) cs
      | none => c :: go 0 cs

@[simp] theorem escape_nil : escape [] = [] := rfl

theorem escape_append (s t : Text) : escape (s ++ t) = escape s ++ escape t := by
  simp only [escape, Text.replaceChar_append]

theorem escape_singleton (c : Char) : escape [c] = entity c := by
  unfold entity
  split
  · next h =>
    subst h
    rfl
  · next amp =>
    split
    · next h =>
      subst h
      rfl
    · next lt =>
      split
      · next h =>
        subst h
        rfl
      · next gt =>
        split
        · next h =>
          subst h
          rfl
        · next quot =>
          rw [escape, Text.replaceChar_of_ne amp, Text.replaceChar_of_ne lt,
            Text.replaceChar_of_ne gt, Text.replaceChar_of_ne quot]

/-- The four replacements in a row come to one replacement of each character. -/
theorem escape_eq_flatMap (s : Text) : escape s = s.flatMap entity := by
  induction s with
  | nil => rfl
  | cons c cs ih => rw [← List.singleton_append, escape_append, escape_singleton, ih]; rfl

private theorem unescape_entity (c : Char) (rest : Text) :
    unescape.go 0 (entity c ++ rest) = c :: unescape.go 0 rest := by
  unfold entity
  split
  · next h =>
    subst h
    rfl
  · next amp =>
    split
    · next h =>
      subst h
      rfl
    · split
      · next h =>
        subst h
        rfl
      · split
        · next h =>
          subst h
          rfl
        · have plain : (entities.find? fun e => e.1.isPrefixOf (c :: rest)) = none := by
            rw [List.find?_eq_none]
            intro e member
            have start : e.1.head? = some '&' := by
              revert e
              decide
            obtain ⟨tail, word⟩ := List.head?_eq_some_iff.mp start
            simp [word, Ne.symm amp]
          simp only [List.singleton_append, unescape.go, plain]

theorem unescape_escape (s : Text) : unescape (escape s) = s := by
  rw [escape_eq_flatMap, unescape]
  induction s with
  | nil => rfl
  | cons c cs ih => rw [List.flatMap_cons, unescape_entity, ih]

example : escape "a\"<b>&lt;".toList = "a&quot;&lt;b&gt;&amp;lt;".toList := by decide

end DocComment.Xml
