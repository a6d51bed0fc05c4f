import DocComment.Proofs.LineScanning
import DocComment.Text.Bytes

/-! Positions that count bytes. A text can be cut at its end and in front of every byte that begins a
character, and nowhere else. The first byte of a character is never met inside another one, so a word is
found in the bytes of a text exactly where it is found among its characters. -/
namespace DocComment.Text

/-- A place where the bytes of a text can be cut: their end, or in front of a byte that begins a character. -/
def Boundary (bytes : List UInt8) (i : Nat) : Prop := i = bytes.length ∨ ∃ b ∈ bytes[i]?, b.IsUTF8FirstByte

/-- The piece of a text between two byte positions. There is none if they run backwards or beyond the end,
or if one of them lies inside a character. -/
def slice? (text : Text) (start stop : Nat) : Option Text :=
  if start ≤ stop then text.bytes? start (stop - start) else none

example : slice? "é:".toList 0 2 = some ['é'] ∧ slice? "é:".toList 1 3 = none := by decide

/-- The byte position of the leftmost occurrence of the bytes of a word. -/
def findBytes? (text word : Text) : Option Nat := (utf8 text).tails.findIdx? (utf8 word).isPrefixOf

/-- The byte position of the first blank. -/
def findBlank? : Text → Option Nat
  | [] => none
  | c :: cs => if isBlank c then some 0 else (findBlank? cs).map (· + c.utf8Size)

variable {text word front piece rest : Text} {c d : Char} {start stop i : Nat}

@[simp] theorem byteSize_nil : byteSize [] = 0 := rfl

@[simp] theorem byteSize_cons (c : Char) (cs : Text) : byteSize (c :: cs) = c.utf8Size + byteSize cs := rfl

@[simp] theorem byteSize_append (s t : Text) : byteSize (s ++ t) = byteSize s + byteSize t := by
  induction s with
  | nil => exact (Nat.zero_add _).symm
  | cons c cs ih => rw [List.cons_append, byteSize_cons, byteSize_cons, ih, Nat.add_assoc]

theorem byteSize_eq_zero_iff : byteSize text = 0 ↔ text = [] := by
  cases text with
  | nil => simp
  | cons c cs =>
    have positive := c.utf8Size_pos
    simp only [byteSize_cons, reduceCtorEq, iff_false]
    omega

theorem byteSize_le_of_prefix (starts : front <+: text) : byteSize front ≤ byteSize text := by
  obtain ⟨rest, rfl⟩ := starts
  rw [byteSize_append]
  exact Nat.le_add_right _ _

theorem eq_of_prefix_of_byteSize_le (starts : front <+: text) (size : byteSize text ≤ byteSize front) :
    front = text := by
  obtain ⟨rest, rfl⟩ := starts
  rw [byteSize_append] at size
  rw [byteSize_eq_zero_iff.mp (show byteSize rest = 0 by omega), List.append_nil]

theorem utf8_cons (c : Char) (cs : Text) : utf8 (c :: cs) = String.utf8EncodeChar c ++ utf8 cs := rfl

theorem length_utf8 (text : Text) : (utf8 text).length = byteSize text := by
  induction text with
  | nil => rfl
  | cons c cs ih => rw [utf8_cons, List.length_append, String.length_utf8EncodeChar, ih, byteSize_cons]

/-- A character begins with a byte that none of its others is like. -/
theorem exists_first_byte (c : Char) : ∃ first more, String.utf8EncodeChar c = first :: more ∧
    first.IsUTF8FirstByte ∧ (∀ b ∈ more, ¬ b.IsUTF8FirstByte) ∧ more.length + 1 = c.utf8Size := by
  have size := String.length_utf8EncodeChar c
  have begins := @UInt8.isUTF8FirstByte_getElem_utf8EncodeChar c
  obtain ⟨first, more, bytes⟩ := List.exists_cons_of_ne_nil (String.utf8EncodeChar_ne_nil (c := c))
  simp only [bytes] at begins
  rw [bytes] at size
  refine ⟨first, more, bytes, (@begins 0 (Nat.zero_lt_succ _)).mpr rfl, ?_, size⟩
  intro b member isFirst
  obtain ⟨i, inside, rfl⟩ := List.getElem_of_mem member
  exact Nat.succ_ne_zero i ((@begins (i + 1) (Nat.succ_lt_succ inside)).mp isFirst)

/-- No character's bytes go on to be those of another. -/
theorem utf8EncodeChar_append_inj {s t : List UInt8}
    (same : String.utf8EncodeChar c ++ s = String.utf8EncodeChar d ++ t) : c = d := by
  have decoded := congrArg (fun bytes => bytes.toByteArray.utf8DecodeChar? 0) same
  simpa only [List.toByteArray_append, ByteArray.utf8DecodeChar?_utf8EncodeChar_append, Option.some.injEq]
    using decoded

theorem utf8_prefix_iff : utf8 word <+: utf8 text ↔ word <+: text := by
  induction word generalizing text with
  | nil => simp [utf8]
  | cons c word ih =>
    cases text with
    | nil => simp [utf8, String.utf8EncodeChar_ne_nil]
    | cons d text =>
      rw [List.cons_prefix_cons]
      constructor
      · rintro ⟨behind, same⟩
        rw [utf8_cons, utf8_cons, List.append_assoc] at same
        obtain rfl := utf8EncodeChar_append_inj same
        exact ⟨rfl, ih.mp ⟨behind, List.append_cancel_left same⟩⟩
      · rintro ⟨rfl, starts⟩
        rw [utf8_cons, utf8_cons, List.prefix_append_right_inj]
        exact ih.mpr starts

theorem utf8_injective : Function.Injective utf8 := by
  intro s t same
  have starts : s <+: t := utf8_prefix_iff.mp (same ▸ List.prefix_rfl)
  refine starts.eq_of_length_le ?_
  have back : t <+: s := utf8_prefix_iff.mp (same ▸ List.prefix_rfl)
  exact back.length_le

theorem boundary_zero (text : Text) : Boundary (utf8 text) 0 := by
  cases text with
  | nil => exact .inl rfl
  | cons c text =>
    obtain ⟨first, more, bytes, begins, _⟩ := exists_first_byte c
    refine .inr ⟨first, ?_, begins⟩
    rw [utf8_cons, bytes]
    rfl

theorem not_boundary_inside (inside : i + 1 < c.utf8Size) (text : Text) : ¬ Boundary (utf8 (c :: text)) (i + 1) := by
  obtain ⟨first, more, bytes, _, others, size⟩ := exists_first_byte c
  have within : i < more.length := by omega
  rintro (ends | ⟨b, here, isFirst⟩)
  · rw [length_utf8, byteSize_cons] at ends
    omega
  · rw [utf8_cons, bytes, List.cons_append, List.getElem?_cons_succ, List.getElem?_append_left within] at here
    exact others b (List.mem_of_getElem? here) isFirst

theorem boundary_behind_iff (c : Char) (text : Text) (i : Nat) :
    Boundary (utf8 (c :: text)) (c.utf8Size + i) ↔ Boundary (utf8 text) i := by
  have length := String.length_utf8EncodeChar c
  rw [Boundary, Boundary, utf8_cons, List.length_append, List.getElem?_append_right (by omega), length,
    Nat.add_sub_cancel_left, Nat.add_left_cancel_iff]

/-- A text can be cut just where some part of it ends. -/
theorem boundary_utf8_iff : Boundary (utf8 text) i ↔ ∃ front rest, text = front ++ rest ∧ byteSize front = i := by
  constructor
  · intro boundary
    induction text generalizing i with
    | nil =>
      obtain rfl : i = 0 := by simpa [Boundary, utf8] using boundary
      exact ⟨[], [], rfl, rfl⟩
    | cons c text ih =>
      by_cases inside : i < c.utf8Size
      · cases i with
        | zero => exact ⟨[], c :: text, rfl, rfl⟩
        | succ i => exact absurd boundary (not_boundary_inside inside text)
      · obtain ⟨i, rfl⟩ := Nat.exists_eq_add_of_le (Nat.le_of_not_lt inside)
        obtain ⟨front, rest, rfl, rfl⟩ := ih ((boundary_behind_iff c text i).mp boundary)
        exact ⟨c :: front, rest, rfl, rfl⟩
  · rintro ⟨front, rest, rfl, rfl⟩
    induction front with
    | nil => exact boundary_zero rest
    | cons c front ih => exact (boundary_behind_iff c (front ++ rest) (byteSize front)).mpr ih

theorem splitBytes?_eq_some_iff {count : Nat} :
    splitBytes? count text = some (front, rest) ↔ text = front ++ rest ∧ byteSize front = count := by
  constructor
  · intro split
    fun_induction splitBytes? count text generalizing front with
    | case1 => cases split; exact ⟨rfl, rfl⟩
    | case2 => cases split
    | case3 => cases split
    | case4 count c cs fits ih =>
      obtain ⟨⟨front, rest⟩, later, same⟩ := Option.map_eq_some_iff.mp split
      cases same
      obtain ⟨rfl, size⟩ := ih later
      refine ⟨rfl, ?_⟩
      rw [byteSize_cons]
      omega
  · rintro ⟨rfl, rfl⟩
    exact splitBytes?_append front rest

theorem slice?_eq_some_parts_iff : slice? text start stop = some piece ↔
    ∃ front behind, text = front ++ (piece ++ behind) ∧ byteSize front = start ∧ start + byteSize piece = stop := by
  rw [slice?]
  constructor
  · intro sliced
    split at sliced
    · next forward =>
      obtain ⟨behindStart, cut, sliced⟩ := Option.bind_eq_some_iff.mp sliced
      obtain ⟨⟨front, rest⟩, first, rfl⟩ := Option.map_eq_some_iff.mp cut
      obtain ⟨⟨piece, behind⟩, second, rfl⟩ := Option.map_eq_some_iff.mp sliced
      obtain ⟨rfl, place⟩ := splitBytes?_eq_some_iff.mp first
      obtain ⟨rfl, size⟩ := splitBytes?_eq_some_iff.mp second
      refine ⟨front, behind, rfl, place, ?_⟩
      rw [size]
      exact Nat.add_sub_cancel' forward
    · cases sliced
  · rintro ⟨front, behind, rfl, rfl, rfl⟩
    rw [if_pos (Nat.le_add_right _ _), Nat.add_sub_cancel_left, bytes?, fromByte?, splitBytes?_append,
      Option.map_some, Option.bind_eq_bind, Option.bind_some, splitBytes?_append]
    rfl

theorem utf8_between (front piece behind : Text) :
    ((utf8 (front ++ piece ++ behind)).take (byteSize (front ++ piece))).drop (byteSize front) = utf8 piece := by
  rw [utf8_append, ← length_utf8 (front ++ piece), List.take_left, utf8_append, ← length_utf8, List.drop_left]

/-- A piece is cut out exactly between two boundaries in the right order, and its bytes are those between them. -/
theorem slice?_eq_some_iff : slice? text start stop = some piece ↔
    start ≤ stop ∧ stop ≤ (utf8 text).length ∧ Boundary (utf8 text) start ∧ Boundary (utf8 text) stop ∧
      utf8 piece = ((utf8 text).take stop).drop start := by
  rw [slice?_eq_some_parts_iff, boundary_utf8_iff, boundary_utf8_iff]
  constructor
  · rintro ⟨front, behind, rfl, rfl, rfl⟩
    rw [← List.append_assoc, ← byteSize_append, length_utf8]
    refine ⟨?_, ?_, ⟨front, piece ++ behind, List.append_assoc _ _ _, rfl⟩, ⟨front ++ piece, behind, rfl, rfl⟩,
      (utf8_between front piece behind).symm⟩
    · exact byteSize_le_of_prefix (List.prefix_append front piece)
    · exact byteSize_le_of_prefix (List.prefix_append (front ++ piece) behind)
  · rintro ⟨forward, _, ⟨front, rest, rfl, rfl⟩, ⟨longer, behind, parts, rfl⟩, bytes⟩
    obtain ⟨middle, rfl⟩ : front <+: longer := by
      rcases List.append_eq_append_iff.mp parts with ⟨middle, rfl, _⟩ | ⟨middle, rfl, _⟩
      · exact List.prefix_append front middle
      · rw [← eq_of_prefix_of_byteSize_le (List.prefix_append longer middle) forward]
    rw [parts, utf8_between] at bytes
    obtain rfl : piece = middle := utf8_injective bytes
    rw [List.append_assoc] at parts
    exact ⟨front, behind, parts, rfl, (byteSize_append _ _).symm⟩

/-- Bytes other than the first of a word are passed over in a search for it. -/
theorem findIdx?_tails_append {first : UInt8} {more bytes behind : List UInt8}
    (absent : ∀ b ∈ bytes, b ≠ first) : (bytes ++ behind).tails.findIdx? (first :: more).isPrefixOf =
      (behind.tails.findIdx? (first :: more).isPrefixOf).map (· + bytes.length) := by
  induction bytes with
  | nil => simp
  | cons b bytes ih =>
    obtain ⟨other, absent⟩ := List.forall_mem_cons.mp absent
    have passed : (first :: more).isPrefixOf (b :: (bytes ++ behind)) = false := by
      simp [List.isPrefixOf, Ne.symm other]
    rw [List.cons_append, List.tails_cons, List.findIdx?_cons, passed, ih absent, if_neg Bool.false_ne_true,
      Option.map_map]
    rfl

/-- Searching among the bytes finds what searching among the characters does. -/
theorem findBytes?_eq (nonempty : word ≠ []) :
    findBytes? text word = (text.indexOf? word).map fun i => byteSize (text.take i) := by
  obtain ⟨w, ws, rfl⟩ := List.exists_cons_of_ne_nil nonempty
  obtain ⟨head, tail, headBytes, headBegins, _, _⟩ := exists_first_byte w
  have wordBytes : utf8 (w :: ws) = head :: (tail ++ utf8 ws) := by rw [utf8_cons, headBytes]; rfl
  rw [findBytes?]
  induction text with
  | nil => rw [wordBytes]; rfl
  | cons c text ih =>
    obtain ⟨first, more, bytes, _, others, size⟩ := exists_first_byte c
    have start : (utf8 (w :: ws)).isPrefixOf (utf8 (c :: text)) = (w :: ws).isPrefixOf (c :: text) := by
      rw [Bool.eq_iff_iff, List.isPrefixOf_iff_prefix, List.isPrefixOf_iff_prefix]
      exact utf8_prefix_iff
    -- The word begins as a character does, so it cannot begin inside of `c`.
    have passed : ∀ b ∈ more, b ≠ head := by
      rintro b member rfl
      exact others b member headBegins
    have parts : utf8 (c :: text) = first :: (more ++ utf8 text) := by rw [utf8_cons, bytes]; rfl
    rw [indexOf?]
    rw [parts] at start ⊢
    rw [List.tails_cons, List.findIdx?_cons, start]
    split
    · rfl
    · rw [wordBytes, findIdx?_tails_append passed, ← wordBytes, ih, Option.map_map, Option.map_map, Option.map_map]
      refine congrArg (Option.map · _) (funext fun i => ?_)
      simp only [Function.comp_apply, List.take_succ_cons, byteSize_cons]
      omega

end DocComment.Text
