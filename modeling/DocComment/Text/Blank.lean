import DocComment.Text.CodePoints
import DocComment.Text.Search

/-! White space and indentation. Blank characters are those with the Unicode property
`White_Space`; the separators U+001C to U+001F, U+180E, U+200B and U+FEFF do not have it. -/
namespace DocComment

/-- The code points with the property `White_Space`, as closed ranges in ascending order. -/
def blankRanges : List (Nat × Nat) :=
  [(0x0009, 0x000D), (0x0020, 0x0020), (0x0085, 0x0085), (0x00A0, 0x00A0), (0x1680, 0x1680),
   (0x2000, 0x200A), (0x2028, 0x2029), (0x202F, 0x202F), (0x205F, 0x205F), (0x3000, 0x3000)]

def isBlank (c : Char) : Bool := inRanges blankRanges c

example : (blankRanges.map fun range => range.2 + 1 - range.1).sum = 25 := by decide

namespace Text

def leadingBlanks (text : Text) : Nat := (text.takeWhile isBlank).length

/-- Removes at most `count` leading blanks. -/
def dropIndent (text : Text) (count : Nat) : Text :=
  text.drop ((text.take count).takeWhile isBlank).length

def trimStart (text : Text) : Text := text.dropWhile isBlank

def trimEnd (text : Text) : Text := (text.reverse.dropWhile isBlank).reverse

def trim (text : Text) : Text := trimEnd (trimStart text)

@[simp] theorem leadingBlanks_nil : leadingBlanks [] = 0 := rfl

theorem leadingBlanks_cons_blank {c : Char} (h : isBlank c = true) (cs : Text) :
    leadingBlanks (c :: cs) = leadingBlanks cs + 1 := by
  simp [leadingBlanks, h]

theorem leadingBlanks_cons_solid {c : Char} (h : isBlank c = false) (cs : Text) :
    leadingBlanks (c :: cs) = 0 := by
  simp [leadingBlanks, h]

@[simp] theorem dropIndent_nil (count : Nat) : dropIndent [] count = [] := by simp [dropIndent]

@[simp] theorem dropIndent_zero (text : Text) : dropIndent text 0 = text := by simp [dropIndent]

theorem dropIndent_cons_blank {c : Char} (h : isBlank c = true) (cs : Text) (count : Nat) :
    dropIndent (c :: cs) (count + 1) = dropIndent cs count := by
  simp [dropIndent, h]

@[simp] theorem trimStart_nil : trimStart [] = [] := rfl

@[simp] theorem trimEnd_nil : trimEnd [] = [] := rfl

/-- A solid character protects everything before it from trimming. -/
theorem trimEnd_append_solid {c : Char} (h : isBlank c = false) (s t : Text) :
    trimEnd (s ++ c :: t) = s ++ c :: trimEnd t := by
  simp only [trimEnd, List.reverse_append, List.reverse_cons, List.append_assoc,
    List.cons_append, List.nil_append]
  rw [List.dropWhile_append]
  by_cases blank : (t.reverse.dropWhile isBlank).isEmpty
  · simp [List.isEmpty_iff.mp blank, h]
  · simp [blank]

end Text
end DocComment
