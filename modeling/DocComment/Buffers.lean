import DocComment.Section
import DocComment.Text.Buffer

/-! Output buffers, one for each section. Reading them in the order of the sections gives the
children of a rendered comment. -/
namespace DocComment

structure Buffers where
  cells : Vector Text.Buffer 10
deriving DecidableEq, Repr

namespace Buffers

def empty : Buffers := ⟨Vector.replicate 10 .empty⟩

def get (b : Buffers) (s : Section) : Text := b.cells[s.index].text

def size (b : Buffers) (s : Section) : Nat := b.cells[s.index].size

def update (b : Buffers) (s : Section) (f : Text.Buffer → Text.Buffer) : Buffers :=
  ⟨b.cells.set s.index (f b.cells[s.index])⟩

def append (b : Buffers) (s : Section) (piece : Text) : Buffers := b.update s (·.append piece)

def trimEnd (b : Buffers) (s : Section) : Buffers := b.update s (·.trimEnd)

def flatten (b : Buffers) : Text := Section.all.flatMap b.get

private theorem get_update_self (b : Buffers) (s : Section) (f : Text.Buffer → Text.Buffer) :
    (b.update s f).get s = (f b.cells[s.index]).text := by
  simp [update, get]

private theorem get_update_of_ne (b : Buffers) {s t : Section} (h : t ≠ s)
    (f : Text.Buffer → Text.Buffer) : (b.update s f).get t = b.get t := by
  have other : s.index ≠ t.index := fun same => h (Section.index_injective same.symm)
  have apart : s.index.val ≠ t.index.val := fun same => other (Fin.ext same)
  simp only [update, get, Fin.getElem_fin]
  rw [Vector.getElem_set_ne _ _ apart]

@[simp] theorem get_empty (s : Section) : empty.get s = [] := by simp [empty, get]

theorem size_eq_length (b : Buffers) (s : Section) : b.size s = (b.get s).length :=
  Text.Buffer.size_eq_length _

@[simp] theorem get_append_self (b : Buffers) (s : Section) (piece : Text) :
    (b.append s piece).get s = b.get s ++ piece := by
  rw [append, get_update_self, Text.Buffer.text_append, get]

theorem get_append_of_ne (b : Buffers) {s t : Section} (h : t ≠ s) (piece : Text) :
    (b.append s piece).get t = b.get t := get_update_of_ne b h _

@[simp] theorem get_trimEnd_self (b : Buffers) (s : Section) :
    (b.trimEnd s).get s = (b.get s).trimEnd := by
  rw [trimEnd, get_update_self, Text.Buffer.text_trimEnd, get]

theorem get_trimEnd_of_ne (b : Buffers) {s t : Section} (h : t ≠ s) :
    (b.trimEnd s).get t = b.get t := get_update_of_ne b h _

theorem ext {a b : Buffers} (h : ∀ s, a.get s = b.get s) : a = b := by
  obtain ⟨as⟩ := a
  obtain ⟨bs⟩ := b
  congr 1
  apply Vector.ext
  intro i hi
  have covered : ∀ i : Fin 10, ∃ s ∈ Section.all, s.index = i := by decide
  obtain ⟨s, _, same⟩ := covered ⟨i, hi⟩
  have cell := Text.Buffer.ext (h s)
  simpa only [same, Fin.getElem_fin] using cell

end Buffers
end DocComment
