import DocComment.Text.Quoted
import Mathlib.Data.List.TakeWhile

/-! Reading quoted text. A reader that looks at the escapes alone finds every character again, so no two
texts are quoted alike. -/
namespace DocComment.Text

def digitValue (c : Char) : Nat := if c.isDigit then c.toNat - 48 else c.toNat - 87

def hexValue (digits : Text) : Nat := digits.foldl (fun n c => 16 * n + digitValue c) 0

theorem digitValue_digitChar : ∀ n < 16, digitValue n.digitChar = n := by decide

theorem digitChar_ne_brace : ∀ n < 16, n.digitChar ≠ '\x7d' := by decide

theorem hexValue_hexDigits (n : Nat) : hexValue (hexDigits n) = n := by
  induction n using Nat.strongRecOn with
  | ind n ih =>
    rw [hexDigits, Nat.toDigits_eq_if (by decide)]
    by_cases small : n < 16
    · rw [if_pos small, hexValue, List.foldl_cons, List.foldl_nil, digitValue_digitChar n small, Nat.mul_zero,
        Nat.zero_add]
    · have front := ih (n / 16) (by omega)
      rw [hexValue, hexDigits] at front
      rw [if_neg small, hexValue, List.foldl_append, front, List.foldl_cons, List.foldl_nil,
         digitValue_digitChar _ (Nat.mod_lt n (by decide))]
      exact Nat.div_add_mod n 16

theorem brace_not_mem_hexDigits (n : Nat) : '\x7d' ∉ hexDigits n := by
  induction n using Nat.strongRecOn with
  | ind n ih =>
    rw [hexDigits, Nat.toDigits_eq_if (by decide)]
    by_cases small : n < 16
    · rw [if_pos small, List.mem_singleton]
      exact (digitChar_ne_brace n small).symm
    · rw [if_neg small, List.mem_append, List.mem_singleton, not_or]
      exact ⟨ih (n / 16) (by omega), (digitChar_ne_brace _ (Nat.mod_lt n (by decide))).symm⟩

/-- The first character of quoted text, and the rest behind it. -/
def unquoteChar? : Text → Option (Char × Text)
  | [] => none
  | '\\' :: 'n' :: rest => some ('\n', rest)
  | '\\' :: 'r' :: rest => some ('\r', rest)
  | '\\' :: 't' :: rest => some ('\t', rest)
  | '\\' :: '0' :: rest => some (Char.ofNat 0, rest)
  | '\\' :: 'u' :: rest =>
    let body := rest.drop 1
    some (Char.ofNat (hexValue (body.takeWhile (· ≠ '\x7d'))), (body.dropWhile (· ≠ '\x7d')).drop 1)
  | '\\' :: c :: rest => some (c, rest)
  | c :: rest => some (c, rest)

/-- A character is read back whatever follows it. -/
theorem unquoteChar?_quoteChar (c : Char) (rest : Text) : unquoteChar? (quoteChar c ++ rest) = some (c, rest) := by
  fun_cases quoteChar c with
  | case1 special =>
    simp only [Bool.or_eq_true, decide_eq_true_eq] at special
    rcases special with rfl | rfl <;> rfl
  | case2 _ feed =>
    cases feed
    rfl
  | case3 _ _ carriage =>
    cases carriage
    rfl
  | case4 _ _ _ tab =>
    cases tab
    rfl
  | case5 _ _ _ _ zero =>
    obtain rfl : c = Char.ofNat 0 := Char.ext (UInt32.toNat_inj.mp zero)
    rfl
  | case6 =>
    have digits : ∀ d ∈ hexDigits c.toNat, decide (d ≠ '\x7d') = true := fun d member =>
      decide_eq_true fun same => brace_not_mem_hexDigits c.toNat (same ▸ member)
    have body : "\\u\x7b".toList ++ hexDigits c.toNat ++ "\x7d".toList ++ rest =
        '\\' :: 'u' :: '\x7b' :: (hexDigits c.toNat ++ '\x7d' :: rest) := by simp
    rw [body, unquoteChar?]
    simp only [List.drop_succ_cons, List.drop_zero, List.takeWhile_append_of_pos digits,
      List.dropWhile_append_of_pos digits]
    simp [hexValue_hexDigits]
  | case7 plain =>
    simp only [Bool.or_eq_true, decide_eq_true_eq, not_or] at plain
    simp [unquoteChar?, plain]

theorem flatMap_quoteChar_injective {s t : Text} (same : s.flatMap quoteChar = t.flatMap quoteChar) : s = t := by
  have nonempty : ∀ (c : Char) (rest : Text), quoteChar c ++ rest ≠ [] := by
    intro c rest empty
    have read := unquoteChar?_quoteChar c rest
    rw [empty] at read
    cases read
  induction s generalizing t with
  | nil =>
    cases t with
    | nil => rfl
    | cons d t => exact absurd same.symm (nonempty d _)
  | cons c s ih =>
    cases t with
    | nil => exact absurd same (nonempty c _)
    | cons d t =>
      have read := congrArg unquoteChar? same
      rw [List.flatMap_cons, List.flatMap_cons, unquoteChar?_quoteChar, unquoteChar?_quoteChar, Option.some.injEq,
        Prod.mk.injEq] at read
      rw [read.1, ih read.2]

/-- Quoting loses nothing. -/
theorem quoted_injective {s t : Text} (same : s.quoted = t.quoted) : s = t :=
  flatMap_quoteChar_injective (List.append_cancel_right (List.cons.inj same).2)

end DocComment.Text
