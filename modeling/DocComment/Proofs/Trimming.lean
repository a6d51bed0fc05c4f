import DocComment.Proofs.Words
import DocComment.Text.Blank
import Mathlib.Data.List.DropRight

/-! Trimming: a text is its trimmed part and blanks, and a text that does not end in a blank is
left as it is. -/
namespace DocComment.Text

variable {s text w : Text} {c : Char}

/-- No character of the text is a blank. -/
def Solid (text : Text) : Prop := ∀ c ∈ text, isBlank c = false

instance : DecidablePred Solid := fun text => decidableForallMem text fun c => isBlank c = false

theorem trimEnd_prefix_self (text : Text) : trimEnd text <+: text := List.rdropWhile_prefix isBlank text

theorem exists_blanks_trimEnd (text : Text) :
    ∃ blanks, (∀ c ∈ blanks, isBlank c = true) ∧ text = trimEnd text ++ blanks := by
  refine ⟨text.rtakeWhile isBlank, fun c => List.mem_rtakeWhile_imp, ?_⟩
  exact List.rdropWhile_append_rtakeWhile.symm

theorem trimEnd_append_blanks (s : Text) {blanks : Text} (h : ∀ c ∈ blanks, isBlank c = true) :
    trimEnd (s ++ blanks) = trimEnd s := by
  have gone : blanks.reverse.dropWhile isBlank = [] :=
    List.dropWhile_eq_nil_iff.mpr fun c member => h c (List.mem_reverse.mp member)
  rw [trimEnd, List.reverse_append, List.dropWhile_append, gone]
  rfl

theorem trimEnd_append_eq_iff (s t : Text) :
    trimEnd (s ++ t) = trimEnd s ↔ ∀ c ∈ t, isBlank c = true := by
  refine ⟨fun same c member => ?_, trimEnd_append_blanks s⟩
  by_contra solid
  obtain ⟨front, rest, rfl⟩ := List.append_of_mem member
  rw [← List.append_assoc, trimEnd_append_solid (Bool.eq_false_iff.mpr solid)] at same
  have bound := (trimEnd_prefix_self s).length_le
  have size := congrArg List.length same
  simp only [List.length_append, List.length_cons] at size
  omega

theorem trimEnd_eq_self (last : ∀ c ∈ text.getLast?, isBlank c = false) :
    trimEnd text = text := by
  refine List.rdropWhile_eq_self_iff.mpr fun nonempty => ?_
  simpa using last _ (List.getLast?_eq_some_getLast nonempty)

theorem getLast?_trimEnd (h : (trimEnd text).getLast? = some c) : isBlank c = false := by
  have nonempty : trimEnd text ≠ [] := by
    intro empty
    simp [empty] at h
  have solid := List.rdropWhile_last_not isBlank text nonempty
  rw [List.getLast?_eq_some_getLast nonempty, Option.some.injEq] at h
  rw [← h]
  exact Bool.eq_false_iff.mpr solid

theorem trimStart_eq_self (head : ∀ c ∈ text.head?, isBlank c = false) :
    trimStart text = text := by
  cases text with
  | nil => rfl
  | cons c cs => simp [trimStart, head c rfl]

theorem trimStart_cons_blank (blank : isBlank c = true) (text : Text) :
    trimStart (c :: text) = trimStart text := by
  simp [trimStart, blank]

theorem leadingBlanks_eq_zero (head : ∀ c ∈ text.head?, isBlank c = false) :
    leadingBlanks text = 0 := by
  cases text with
  | nil => rfl
  | cons c cs => exact leadingBlanks_cons_solid (head c rfl) cs

theorem trimStart_append_of_blank (blank : ∀ c ∈ w, isBlank c = true) (text : Text) :
    trimStart (w ++ text) = trimStart text := by
  induction w with
  | nil => rfl
  | cons c w ih =>
    obtain ⟨first, later⟩ := List.forall_mem_cons.mp blank
    rw [List.cons_append, trimStart_cons_blank first, ih later]

theorem leadingBlanks_append (blank : ∀ c ∈ w, isBlank c = true) (text : Text) :
    leadingBlanks (w ++ text) = w.length + leadingBlanks text := by
  induction w with
  | nil => exact (Nat.zero_add _).symm
  | cons c w ih =>
    obtain ⟨first, later⟩ := List.forall_mem_cons.mp blank
    rw [List.cons_append, leadingBlanks_cons_blank first, ih later, List.length_cons]
    omega

theorem dropIndent_append (blank : ∀ c ∈ w, isBlank c = true) (text : Text) (count : Nat) :
    dropIndent (w ++ text) (w.length + count) = dropIndent text count := by
  induction w with
  | nil => rw [List.nil_append, List.length_nil, Nat.zero_add]
  | cons c w ih =>
    obtain ⟨first, later⟩ := List.forall_mem_cons.mp blank
    rw [List.cons_append, List.length_cons, Nat.add_right_comm, dropIndent_cons_blank first, ih later]

/-- Only blanks are dropped from a line. -/
theorem exists_blanks_dropIndent (text : Text) (count : Nat) :
    ∃ blanks, (∀ c ∈ blanks, isBlank c = true) ∧ text = blanks ++ dropIndent text count := by
  refine ⟨(text.take count).takeWhile isBlank, fun c => List.mem_takeWhile_imp, ?_⟩
  have dropped := (List.takeWhile_prefix isBlank).trans (List.take_prefix count text)
  exact (List.prefix_iff_eq_append.mp dropped).symm

theorem dropIndent_blank_iff (text : Text) (count : Nat) :
    (∀ c ∈ dropIndent text count, isBlank c = true) ↔ ∀ c ∈ text, isBlank c = true := by
  obtain ⟨blanks, blank, parts⟩ := exists_blanks_dropIndent text count
  conv_rhs => rw [parts]
  rw [List.forall_mem_append]
  exact ⟨fun rest => ⟨blank, rest⟩, fun both => both.2⟩

def Blank (text : Text) : Prop := ∀ c ∈ text, isBlank c = true

theorem trimEnd_trimEnd (text : Text) : trimEnd (trimEnd text) = trimEnd text :=
  trimEnd_eq_self fun _ => getLast?_trimEnd

theorem trimEnd_eq_nil_iff : trimEnd text = [] ↔ Blank text := by
  have behind := trimEnd_append_eq_iff [] text
  rwa [List.nil_append, trimEnd_nil] at behind

theorem trimEnd_append {s t : Text} (solid : ¬ Blank t) : trimEnd (s ++ t) = s ++ trimEnd t := by
  obtain ⟨blanks, blank, parts⟩ := exists_blanks_trimEnd t
  have nonempty : trimEnd t ≠ [] := mt trimEnd_eq_nil_iff.mp solid
  conv_lhs => rw [parts, ← List.append_assoc, trimEnd_append_blanks _ blank]
  refine trimEnd_eq_self fun c last => ?_
  rw [List.getLast?_append_of_ne_nil _ nonempty] at last
  exact getLast?_trimEnd last

theorem dropIndent_leadingBlanks (text : Text) : dropIndent text (leadingBlanks text) = trimStart text := by
  induction text with
  | nil => rfl
  | cons c cs ih =>
    cases blank : isBlank c with
    | false => rw [leadingBlanks_cons_solid blank, dropIndent_zero, trimStart_eq_self (by simpa using blank)]
    | true => rw [leadingBlanks_cons_blank blank, dropIndent_cons_blank blank, ih, trimStart_cons_blank blank]

theorem isBlank_head_trimStart (head : c ∈ (trimStart text).head?) : isBlank c = false := by
  have solid := List.head?_dropWhile_not isBlank text
  rw [← trimStart, head] at solid
  exact Bool.eq_false_iff.mpr (by simpa using solid)

theorem head?_trimEnd (head : c ∈ (trimEnd text).head?) : c ∈ text.head? := by
  obtain ⟨rest, parts⟩ := trimEnd_prefix_self text
  rw [← parts, List.head?_append, head]
  rfl

theorem dropIndent_subset (text : Text) (count : Nat) : dropIndent text count ⊆ text :=
  List.drop_subset _ text

theorem trim_subset (text : Text) : trim text ⊆ text := by
  have inner : trimStart text ⊆ text := (List.dropWhile_suffix isBlank).subset
  exact List.Subset.trans (trimEnd_prefix_self (trimStart text)).subset inner

end DocComment.Text
