import DocComment.Proofs.Trimming
import DocComment.Xml.Escape
import DocComment.Xml.Reader

/-! Attribute values: what an escaped value holds, reading it back, and the start tags that carry one. -/
namespace DocComment.Xml

variable {c : Char} {text : Text}

/-- A character is written by its entity, or else by itself. -/
theorem entity_cases (d : Char) : (entity d, d) ∈ entities ∨
    (d ∉ ['&', '<', '>', '"'] ∧ entity d = [d]) := by
  by_cases special : d ∈ ['&', '<', '>', '"']
  · left
    revert d
    decide
  · right
    simp only [List.mem_cons, List.not_mem_nil, or_false, not_or] at special
    obtain ⟨amp, lt, gt, quot⟩ := special
    simp [entity, amp, lt, gt, quot]

/-- An angle or a quote is never written as it is. -/
theorem not_mem_escape (special : c ∈ ['<', '>', '"']) (text : Text) : c ∉ escape text := by
  rw [escape_eq_flatMap]
  intro inside
  obtain ⟨d, _, written⟩ := List.mem_flatMap.mp inside
  rcases entity_cases d with known | ⟨plain, same⟩
  · have clean : ∀ pair ∈ entities, ∀ c ∈ ['<', '>', '"'], c ∉ pair.1 := by decide
    exact clean _ known c special written
  · rw [same, List.mem_singleton] at written
    subst written
    exact plain (List.mem_cons_of_mem '&' special)

theorem quote_not_mem_escape (text : Text) : '"' ∉ escape text := not_mem_escape (by decide) text

/-- Only the first character of an entity is an ampersand. -/
theorem entity_ampersand {d : Char} {front inner : Text} (written : entity d = front ++ '&' :: inner) :
    front = [] ∧ (entity d, d) ∈ entities := by
  rcases entity_cases d with known | ⟨plain, same⟩
  · refine ⟨?_, known⟩
    have single : ∀ pair ∈ entities, '&' ∉ pair.1.tail := by decide
    cases front with
    | nil => rfl
    | cons f front =>
      refine absurd ?_ (single _ known)
      rw [written]
      exact List.mem_append_right front List.mem_cons_self
  · rw [same] at written
    have itself : '&' ∈ [d] := written ▸ List.mem_append_right front List.mem_cons_self
    rw [List.mem_singleton] at itself
    subst itself
    simp at plain

/-- An ampersand begins an entity wherever it stands in what is escaped. -/
theorem entity_at_ampersand {front rest : Text} (parts : escape text = front ++ '&' :: rest) :
    ∃ pair ∈ entities, pair.1 <+: '&' :: rest := by
  rw [escape_eq_flatMap] at parts
  induction text generalizing front with
  | nil => simp at parts
  | cons d text ih =>
    rw [List.flatMap_cons, List.append_eq_append_iff] at parts
    rcases parts with ⟨more, _, later⟩ | ⟨inner, written, behind⟩
    · exact ih later
    · cases inner with
      | nil =>
        have later : text.flatMap entity = [] ++ '&' :: rest := behind.symm
        exact ih later
      | cons e inner =>
        obtain ⟨rfl, rfl⟩ := List.cons.inj behind
        obtain ⟨rfl, known⟩ := entity_ampersand written
        refine ⟨_, known, ?_⟩
        rw [written]
        exact List.prefix_append ('&' :: inner) _

theorem ampersand_iff (text : Text) (i : Nat) :
    (escape text)[i]? = some '&' ↔ ∃ pair ∈ entities, pair.1 <+: (escape text).drop i := by
  constructor
  · intro here
    obtain ⟨inside, same⟩ := List.getElem?_eq_some_iff.mp here
    have behind := List.drop_eq_getElem_cons inside
    rw [same] at behind
    have parts := (List.take_append_drop i (escape text)).symm
    rw [behind] at parts ⊢
    exact entity_at_ampersand parts
  · rintro ⟨pair, known, rest, same⟩
    have start : ∀ pair ∈ entities, pair.1.head? = some '&' := by decide
    obtain ⟨tail, word⟩ := List.head?_eq_some_iff.mp (start pair known)
    have head := congrArg List.head? same
    rw [word, List.cons_append, List.head?_cons, List.head?_drop] at head
    exact head.symm

theorem mem_of_blank_mem_escape (blank : isBlank c = true) (inside : c ∈ escape text) : c ∈ text := by
  rw [escape_eq_flatMap] at inside
  obtain ⟨d, member, written⟩ := List.mem_flatMap.mp inside
  rcases entity_cases d with known | ⟨plain, same⟩
  · have solid : ∀ pair ∈ entities, pair.1.Solid := by decide
    rw [solid _ known c written] at blank
    cases blank
  · rw [same, List.mem_singleton] at written
    rwa [written]

theorem attributeChar_eq_self (solid : isBlank c = false) : attributeChar c = c := by
  have blank : ∀ d ∈ ['\t', '\n', '\r'], isBlank d = true := by decide
  rw [attributeChar, if_neg]
  intro member
  rw [blank c member] at solid
  cases solid

/-- A written value ends at the first quote behind it. -/
theorem takeWhile_escape (text rest : Text) :
    (escape text ++ '"' :: rest).takeWhile (· ≠ '"') = escape text := by
  have inner : ∀ c ∈ escape text, decide (c ≠ '"') = true := by
    intro c inside
    rw [decide_eq_true_eq]
    rintro rfl
    exact quote_not_mem_escape text inside
  rw [List.takeWhile_append_of_pos inner]
  exact List.append_nil _

/-- A value without blanks is read back, up to the quote behind it. -/
theorem readValue_escape (solid : text.Solid) (rest : Text) :
    readValue (escape text ++ ("\">".toList ++ rest)) = some (text, rest) := by
  have value : (escape text ++ ("\">".toList ++ rest)).takeWhile (· ≠ '"') = escape text :=
    takeWhile_escape text ('>' :: rest)
  have kept : ∀ c ∈ escape text, attributeChar c = c := by
    intro c inside
    cases blank : isBlank c with
    | false => exact attributeChar_eq_self blank
    | true =>
      have member := solid c (mem_of_blank_mem_escape blank inside)
      rw [blank] at member
      cases member
  have same : (escape text).map attributeChar = escape text :=
    (List.map_congr_left kept).trans (List.map_id _)
  simp only [readValue, value, List.drop_left, Text.after?_append, same, unescape_escape]
  rfl

theorem escape_injective : Function.Injective escape :=
  Function.LeftInverse.injective unescape_escape

/-- The start of an element shows whether it has a tag, and which. -/
theorem startTag_injective (ns : Option Text) (name : Text) :
    Function.Injective ((Markup.xml ns).startTag name) := by
  have parts : ∀ tag, (Markup.xml ns).startTag name (some tag) =
      '<' :: Markup.qualify ns name ++ (" tag=\"".toList ++ (escape tag ++ "\">".toList)) := by
    intro tag
    simp only [Markup.xml, List.append_assoc]
  have differ : ∀ tag, (Markup.xml ns).startTag name none ≠ (Markup.xml ns).startTag name (some tag) := by
    intro tag same
    have behind := List.append_cancel_left (same.trans (parts tag))
    exact absurd (List.cons.inj behind).1 (by decide)
  intro a b same
  cases a with
  | none =>
    cases b with
    | none => rfl
    | some b => exact absurd same (differ b)
  | some a =>
    cases b with
    | none => exact absurd same.symm (differ a)
    | some b =>
      rw [parts, parts] at same
      have values := List.append_cancel_left (List.append_cancel_left same)
      rw [escape_injective (List.append_cancel_right values)]

/-- Escaping loses nothing, whatever entities a text already seems to hold. The four replacements come to one
of each character, so a text can be escaped in parts; no angle or quote is left, and an ampersand stands only
where an entity begins; reading the entities from the left gives the text back. So the value of a tag goes up
to the first quote behind the one that opens it, and no two tags are written alike. -/
theorem attribute_values_lossless :
    (∀ s : Text, escape s = s.flatMap entity ∧ unescape (escape s) = s) ∧
    (∀ s t : Text, escape (s ++ t) = escape s ++ escape t) ∧
    (∀ s : Text, '<' ∉ escape s ∧ '>' ∉ escape s ∧ '"' ∉ escape s) ∧
    (∀ (s : Text) (i : Nat), (escape s)[i]? = some '&' ↔ ∃ pair ∈ entities, pair.1 <+: (escape s).drop i) ∧
    ∀ (ns : Option Text) (name : Text), Function.Injective ((Markup.xml ns).startTag name) ∧
      ∀ tag : Text, ∃ behind, (Markup.xml ns).startTag name (some tag) =
          '<' :: Markup.qualify ns name ++ " tag=\"".toList ++ behind ∧
        behind.takeWhile (· ≠ '"') = escape tag ∧ behind.dropWhile (· ≠ '"') = "\">".toList := by
  refine ⟨fun s => ⟨escape_eq_flatMap s, unescape_escape s⟩, escape_append, fun s => ?_, ampersand_iff,
    fun ns name => ⟨startTag_injective ns name, fun tag => ?_⟩⟩
  · exact ⟨not_mem_escape (by decide) s, not_mem_escape (by decide) s, not_mem_escape (by decide) s⟩
  · have value := takeWhile_escape tag ['>']
    have parts := List.takeWhile_append_dropWhile (p := (· ≠ '"')) (l := escape tag ++ ['"', '>'])
    rw [value] at parts
    exact ⟨escape tag ++ ['"', '>'], by simp [Markup.xml], value, List.append_cancel_left parts⟩

end DocComment.Xml
