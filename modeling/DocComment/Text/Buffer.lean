import DocComment.Text.Blank

/-! A text that grows at its end. The characters are kept last first, so adding a piece costs its
own length only; `text` is the view through which the operations are described. -/
namespace DocComment.Text

structure Buffer where
  reversed : List Char
  size : Nat
  size_eq : size = reversed.length
deriving DecidableEq, Repr

namespace Buffer

def empty : Buffer := ⟨[], 0, rfl⟩

def text (b : Buffer) : Text := b.reversed.reverse

def append (b : Buffer) (piece : Text) : Buffer where
  reversed := piece.reverseAux b.reversed
  size := b.size + piece.length
  size_eq := by simp [List.reverseAux_eq, b.size_eq, Nat.add_comm]

def trimEnd (b : Buffer) : Buffer where
  reversed := b.reversed.dropWhile isBlank
  size := b.size - (b.reversed.takeWhile isBlank).length
  size_eq := by
    have parts := congrArg List.length (List.takeWhile_append_dropWhile (p := isBlank) (l := b.reversed))
    rw [List.length_append] at parts
    rw [b.size_eq]
    omega

@[simp] theorem text_empty : empty.text = [] := rfl

@[simp] theorem text_append (b : Buffer) (piece : Text) :
    (b.append piece).text = b.text ++ piece := by
  simp [append, text, List.reverseAux_eq]

@[simp] theorem text_trimEnd (b : Buffer) : b.trimEnd.text = b.text.trimEnd := by
  simp [trimEnd, text, Text.trimEnd]

theorem size_eq_length (b : Buffer) : b.size = b.text.length := by
  simp [text, b.size_eq]

theorem ext {a b : Buffer} (h : a.text = b.text) : a = b := by
  obtain ⟨as, n, hn⟩ := a
  obtain ⟨bs, m, hm⟩ := b
  have same : as = bs := by simpa [text] using h
  subst same
  subst hn
  subst hm
  rfl

end Buffer
end DocComment.Text
