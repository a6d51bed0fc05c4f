import DocComment.Text.Search

/-! Cutting text at positions that count the bytes of its UTF-8 form. A position inside a character
is none to cut at. -/
namespace DocComment.Text

def byteSize : Text → Nat
  | [] => 0
  | c :: cs => c.utf8Size + byteSize cs

/-- Parts a text behind its first `count` bytes. -/
def splitBytes? : Nat → Text → Option (Text × Text)
  | 0, text => some ([], text)
  | _ + 1, [] => none
  | count + 1, c :: cs =>
    if count + 1 < c.utf8Size then none
    else (splitBytes? (count + 1 - c.utf8Size) cs).map fun (front, rest) => (c :: front, rest)

/-- What follows the first `start` bytes. -/
def fromByte? (text : Text) (start : Nat) : Option Text := (splitBytes? start text).map Prod.snd

/-- The `size` bytes that follow the first `start`. -/
def bytes? (text : Text) (start size : Nat) : Option Text := do
  let rest ← fromByte? text start
  (splitBytes? size rest).map Prod.fst

/-- Cutting behind the bytes of a text gives that text back. -/
theorem splitBytes?_append (s t : Text) : splitBytes? (byteSize s) (s ++ t) = some (s, t) := by
  induction s with
  | nil => cases t <;> rfl
  | cons c cs ih =>
    obtain ⟨size, same⟩ := Nat.exists_eq_add_one.mpr c.utf8Size_pos
    have fits : ¬ size + byteSize cs + 1 < size + 1 := by omega
    have rest : size + byteSize cs + 1 - (size + 1) = byteSize cs := by omega
    rw [byteSize, same, Nat.add_right_comm, List.cons_append, splitBytes?, same, if_neg fits, rest,
      ih]
    rfl

example : splitBytes? 2 "éa".toList = some (['é'], ['a']) ∧ splitBytes? 1 "éa".toList = none := by
  decide

end DocComment.Text
