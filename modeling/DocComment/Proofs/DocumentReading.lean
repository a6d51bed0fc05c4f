import DocComment.Proofs.Assembly
import DocComment.Proofs.AttributeValues
import DocComment.Proofs.ElementText
import DocComment.Proofs.SectionOrder

/-! A rendered comment is read back. Names are delimited by characters that no name holds, values
by the quote that escaping removes, and text by the CDATA marks, so the reader stays in step with
the writer over any number of elements. -/
namespace DocComment.Xml

/-- The code points that can stand in an XML name, as closed ranges in ascending order. -/
def nameRanges : List (Nat × Nat) :=
  [(0x002D, 0x002E), (0x0030, 0x003A), (0x0041, 0x005A), (0x005F, 0x005F), (0x0061, 0x007A),
   (0x00B7, 0x00B7), (0x00C0, 0x00D6), (0x00D8, 0x00F6), (0x00F8, 0x037D), (0x037F, 0x1FFF),
   (0x200C, 0x200D), (0x203F, 0x2040), (0x2070, 0x218F), (0x2C00, 0x2FEF), (0x3001, 0xD7FF),
   (0xF900, 0xFDCF), (0xFDF0, 0xFFFD), (0x10000, 0xEFFFF)]

def isNameChar (c : Char) : Bool := inRanges nameRanges c

/-- A namespace that is absent or made of name characters. -/
def Named (ns : Option Text) : Prop := ∀ p ∈ ns, ∀ c ∈ p, isNameChar c = true

theorem named_none : Named none := by
  intro p absent
  cases absent

variable {ns : Option Text} {e : Element} {c : Char}

theorem isNameChar_ne {d : Char} (h : isNameChar c = true) (other : isNameChar d = false) : c ≠ d := by
  rintro rfl
  rw [h] at other
  cases other

theorem isNameChar_name (s : Section) : ∀ c ∈ s.name, isNameChar c = true := by
  cases s <;> decide

theorem isNameChar_qualify (named : Named ns) {name : Text}
    (h : ∀ c ∈ name, isNameChar c = true) : ∀ c ∈ Markup.qualify ns name, isNameChar c = true := by
  intro c inside
  rw [Markup.qualify.eq_def] at inside
  split at inside
  · exact h c inside
  · exact h c inside
  · next p _ =>
    rcases List.mem_append.mp inside with before | behind
    · exact named p rfl c before
    · rcases List.mem_cons.mp behind with rfl | behind
      · decide
      · exact h c behind

/-- What no name holds does not come in with the namespace either. -/
theorem not_mem_qualify (named : Named ns) {name : Text} (h : ∀ c ∈ name, isNameChar c = true)
    {d : Char} (other : isNameChar d = false) : d ∉ Markup.qualify ns name := by
  intro inside
  exact isNameChar_ne (isNameChar_qualify named h d inside) other rfl

theorem qualify_injective {a b : Text} (h : Markup.qualify ns a = Markup.qualify ns b) : a = b := by
  rw [Markup.qualify.eq_def, Markup.qualify.eq_def] at h
  split at h
  · exact h
  · exact h
  · exact (List.cons.inj (List.append_cancel_left h)).2

/-- Reading a name stops behind it. -/
private theorem takeWhile_name {name rest : Text} (h : ∀ c ∈ name, isNameChar c = true)
    (delimited : rest.head? = some '>' ∨ rest.head? = some ' ') :
    (name ++ rest).takeWhile (fun c => c ≠ '>' && c ≠ ' ') = name := by
  have inner : ∀ c ∈ name, (decide (c ≠ '>') && decide (c ≠ ' ')) = true := by
    intro c inside
    have angle := isNameChar_ne (h c inside) (d := '>') (by decide)
    have space := isNameChar_ne (h c inside) (d := ' ') (by decide)
    simp [angle, space]
  rw [List.takeWhile_append_of_pos inner]
  rcases delimited with head | head
  all_goals
    obtain ⟨tail, rfl⟩ := List.head?_eq_some_iff.mp head
    exact List.append_nil name

private theorem find?_name (ns : Option Text) (s : Section) :
    Section.all.find? (fun t => Markup.qualify ns t.name = Markup.qualify ns s.name) = some s := by
  cases found : Section.all.find? fun t => Markup.qualify ns t.name = Markup.qualify ns s.name with
  | none =>
    have absent := List.find?_eq_none.mp found s (Section.mem_all s)
    simp at absent
  | some t =>
    have same := List.find?_some found
    rw [decide_eq_true_eq] at same
    rw [Section.name_injective (qualify_injective same)]

/-- Once the name is read, what is left of a start tag is a value or its end. -/
private theorem readStart_name (named : Named ns) (s : Section) {rest : Text}
    (delimited : rest.head? = some '>' ∨ rest.head? = some ' ') :
    readStart ns (['<'] ++ (Markup.qualify ns s.name ++ rest)) =
      match Text.after? " tag=\"".toList rest with
      | some value => (readValue value).map fun (tag, rest) => (s, some tag, rest)
      | none => (Text.after? ['>'] rest).map fun rest => (s, none, rest) := by
  have chars := isNameChar_qualify named (isNameChar_name s)
  simp only [readStart, Text.after?_append, Option.bind_eq_bind, Option.bind_some,
    takeWhile_name chars delimited, find?_name, List.drop_left]
  cases Text.after? " tag=\"".toList rest with
  | none => cases Text.after? ['>'] rest <;> rfl
  | some value =>
    dsimp only
    cases readValue value <;> rfl

theorem readStart_startTag (named : Named ns) (s : Section) {name : Option Text}
    (solid : ∀ n ∈ name, n.Solid) (rest : Text) :
    readStart ns ((Markup.xml ns).startTag s.name name ++ rest) = some (s, name, rest) := by
  cases name with
  | none =>
    have split : (Markup.xml ns).startTag s.name none ++ rest =
        ['<'] ++ (Markup.qualify ns s.name ++ (['>'] ++ rest)) := by simp [Markup.xml]
    have plain : Text.after? " tag=\"".toList (['>'] ++ rest) = none := rfl
    rw [split, readStart_name named s (.inl rfl), plain, Text.after?_append]
    rfl
  | some tag =>
    have split : (Markup.xml ns).startTag s.name (some tag) ++ rest =
        ['<'] ++ (Markup.qualify ns s.name ++
          (" tag=\"".toList ++ (escape tag ++ ("\">".toList ++ rest)))) := by
      simp only [Markup.xml, List.append_assoc, List.cons_append, List.nil_append]
    rw [split, readStart_name named s (.inr rfl), Text.after?_append]
    dsimp only
    rw [readValue_escape (solid tag rfl)]
    rfl

theorem readElement_render (named : Named ns) (e : Element)
    (solid : ∀ n ∈ e.name, n.Solid) (rest : Text) :
    readElement ns (e.render (Markup.xml ns) ++ rest) = some (e, rest) := by
  have closed : ¬ cdataStart <+: (Markup.xml ns).endTag e.target.name ++ rest := by
    intro starts
    have tag : (Markup.xml ns).endTag e.target.name =
        '<' :: '/' :: (Markup.qualify ns e.target.name ++ ['>']) := rfl
    have mark : cdataStart = '<' :: '!' :: "[CDATA[".toList := by decide
    rw [tag, mark, List.cons_append, List.cons_append, List.cons_prefix_cons,
      List.cons_prefix_cons] at starts
    exact absurd starts.2.1 (by decide)
  have start := readStart_startTag named e.target solid
  have text := readSections_cdataSafe e.text closed
  have stop := Text.after?_append ((Markup.xml ns).endTag e.target.name) rest
  simp only [List.append_assoc] at text
  simp only [readElement, Element.render, List.append_assoc, start, Option.bind_eq_bind,
    Option.bind_some, Text.after?_append, text]
  rw [show "</".toList ++ (Markup.qualify ns e.target.name ++ ['>']) =
    (Markup.xml ns).endTag e.target.name from rfl, stop]
  rfl

/-- The end of the document is no element: no name begins with a slash. -/
theorem readElement_root_end (named : Named ns) :
    readElement ns ((Markup.xml ns).endTag "comment".toList) = none := by
  have chars : ∀ c ∈ Markup.qualify ns "comment".toList, isNameChar c = true :=
    isNameChar_qualify named (by decide)
  have split : (Markup.xml ns).endTag "comment".toList =
      ['<'] ++ ('/' :: (Markup.qualify ns "comment".toList ++ ['>'])) := rfl
  have name : ('/' :: (Markup.qualify ns "comment".toList ++ ['>'])).takeWhile
      (fun c => c ≠ '>' && c ≠ ' ') = '/' :: Markup.qualify ns "comment".toList := by
    rw [List.takeWhile_cons_of_pos (by decide), takeWhile_name chars (.inl rfl)]
  have unknown : Section.all.find? (fun s =>
      Markup.qualify ns s.name = '/' :: Markup.qualify ns "comment".toList) = none := by
    refine List.find?_eq_none.mpr fun s _ same => ?_
    rw [decide_eq_true_eq] at same
    refine not_mem_qualify named (isNameChar_name s) (d := '/') rfl ?_
    rw [same]
    exact List.mem_cons_self
  have start : readStart ns ((Markup.xml ns).endTag "comment".toList) = none := by
    simp only [split, readStart, Text.after?_append, Option.bind_eq_bind, Option.bind_some, name, unknown,
      Option.bind_none]
  rw [readElement, start]
  rfl

theorem render_ne_nil (m : Markup) (e : Element) : e.render m ≠ [] := by
  intro empty
  simp only [Element.render, List.append_eq_nil_iff] at empty
  exact absurd empty.1.2 (by decide)

theorem readElements_flatMap (named : Named ns) {es : List Element}
    (solid : ∀ e ∈ es, ∀ n ∈ e.name, n.Solid) {count : Nat} (enough : es.length ≤ count) :
    readElements ns count
        (es.flatMap (Element.render (Markup.xml ns)) ++ (Markup.xml ns).endTag "comment".toList) =
      (es, (Markup.xml ns).endTag "comment".toList) := by
  induction es generalizing count with
  | nil =>
    cases count with
    | zero => rfl
    | succ count => rw [readElements, List.flatMap_nil, List.nil_append, readElement_root_end named]
  | cons e es ih =>
    obtain ⟨count, rfl⟩ := Nat.exists_eq_add_of_le' enough
    have first := solid e List.mem_cons_self
    have rest := ih (fun x member => solid x (List.mem_cons_of_mem e member))
      (Nat.le_add_left es.length count)
    rw [List.flatMap_cons, List.append_assoc, List.length_cons, ← Nat.add_assoc, readElements,
      readElement_render named e first]
    simp only [rest]

theorem length_le_flatMap (m : Markup) (es : List Element) :
    es.length ≤ (es.flatMap (Element.render m)).length := by
  induction es with
  | nil => exact Nat.zero_le _
  | cons e es ih =>
    have positive := List.length_pos_iff.mpr (render_ne_nil m e)
    rw [List.flatMap_cons, List.length_cons, List.length_append]
    omega

theorem cr_not_mem_startTag (named : Named ns) {name : Text} (chars : ∀ c ∈ name, isNameChar c = true)
    {tag : Option Text} (solid : ∀ t ∈ tag, t.Solid) :
    '\r' ∉ (Markup.xml ns).startTag name tag := by
  have qualified := not_mem_qualify named chars (d := '\r') rfl
  cases tag with
  | none => simpa [Markup.xml] using qualified
  | some t =>
    have value : '\r' ∉ escape t := fun inside =>
      absurd (solid t rfl _ (mem_of_blank_mem_escape (by decide) inside)) (by decide)
    have marks : '\r' ∉ " tag=\"".toList ∧ '\r' ∉ "\">".toList := by decide
    simp only [Markup.xml, List.mem_append, List.mem_cons, not_or]
    exact ⟨⟨⟨⟨by decide, qualified⟩, marks.1⟩, value⟩, marks.2⟩

theorem cr_not_mem_endTag (named : Named ns) {name : Text} (chars : ∀ c ∈ name, isNameChar c = true) :
    '\r' ∉ (Markup.xml ns).endTag name := by
  have qualified := not_mem_qualify named chars (d := '\r') rfl
  simpa [Markup.xml] using qualified

theorem cr_not_mem_render (named : Named ns) (clean : e.Clean) : '\r' ∉ e.render (Markup.xml ns) := by
  have chars := isNameChar_name e.target
  have start := cr_not_mem_startTag named chars clean.name
  have stop := cr_not_mem_endTag named chars
  have marks : '\r' ∉ cdataStart ∧ '\r' ∉ cdataEnd := by decide
  have text : '\r' ∉ cdataSafe e.text := by
    intro inside
    rcases Text.mem_replaceAll cdataEnd_ne_nil inside with own | gap
    · exact clean.text _ own rfl
    · exact absurd gap (by decide)
  simp only [Element.render, List.mem_append, not_or]
  exact ⟨⟨⟨⟨start, marks.1⟩, text⟩, marks.2⟩, stop⟩

theorem cr_not_mem_documentOf (named : Named ns) {es : List Element}
    (clean : ∀ e ∈ es, e.Clean) :
    '\r' ∉ documentOf (Markup.xml ns) es := by
  have chars : ∀ c ∈ "comment".toList, isNameChar c = true := by decide
  have start : '\r' ∉ (Markup.xml ns).startTag "comment".toList none :=
    cr_not_mem_startTag named chars nofun
  have stop := cr_not_mem_endTag named chars
  have inner : '\r' ∉ (Element.bySection es).flatMap (Element.render (Markup.xml ns)) := by
    intro inside
    obtain ⟨e, member, part⟩ := List.mem_flatMap.mp inside
    exact cr_not_mem_render named (clean e (Element.mem_bySection.mp member)) part
  simp only [documentOf, List.mem_append, not_or]
  exact ⟨⟨start, inner⟩, stop⟩

theorem readDocument_documentOf (named : Named ns) {es : List Element}
    (clean : ∀ e ∈ es, e.Clean) :
    readDocument ns (documentOf (Markup.xml ns) es) = some (Element.bySection es) := by
  have solid : ∀ e ∈ Element.bySection es, ∀ n ∈ e.name, n.Solid := fun e member =>
    (clean e (Element.mem_bySection.mp member)).name
  have enough : (Element.bySection es).length ≤
      ((Element.bySection es).flatMap (Element.render (Markup.xml ns)) ++
        (Markup.xml ns).endTag "comment".toList).length := by
    have inner := length_le_flatMap (Markup.xml ns) (Element.bySection es)
    rw [List.length_append]
    omega
  have start : '<' :: Markup.qualify ns "comment".toList ++ ['>'] =
      (Markup.xml ns).startTag "comment".toList none := rfl
  have stop : "</".toList ++ Markup.qualify ns "comment".toList ++ ['>'] =
      (Markup.xml ns).endTag "comment".toList := rfl
  rw [readDocument, Text.unifyBreaks_eq_self (cr_not_mem_documentOf named clean)]
  simp only [documentOf, List.append_assoc (Markup.startTag _ _ _), start, stop, Text.after?_append,
    Option.bind_eq_bind, Option.bind_some, readElements_flatMap named solid enough, if_true]

theorem readDocument_bySection (named : Named ns) (comment : Text) :
    readDocument ns (render (Markup.xml ns) comment) = some (Element.bySection (elementsOf comment)) := by
  rw [render_eq_documentOf, readDocument_documentOf named (elementsOf_clean comment)]

/-- Every rendered comment is a complete document, and what is read from it is the list of elements
of the block in the order of their sections, with every name and text character by character. -/
theorem readDocument_render (ns : Option Text) (named : Named ns) (comment : Text) :
    readDocument ns (render (Markup.xml ns) comment) =
      some ((elementsOf comment).mergeSort Element.notAfter) := by
  rw [readDocument_bySection named, Element.bySection_eq_mergeSort]

theorem readDocument_render_marked :
    Named (some "xq".toList) ∧
      readDocument (some "xq".toList) (render (Markup.xml (some "xq".toList))
          "(:~ a]]>]]\r : @custom:\"<&]]> </xq:custom>\r\n : @see <![CDATA[ ]]\n : ]> :)".toList) =
        some [⟨.description, none, "a]]>]]".toList⟩, ⟨.see, none, "<![CDATA[ ]]\n]>".toList⟩,
          ⟨.custom, some "\"<&]]>".toList, "</xq:custom>".toList⟩] := by
  have named : Named (some "xq".toList) := by
    rintro p ⟨⟩
    decide
  refine ⟨named, ?_⟩
  rw [readDocument_render _ named, ← Element.bySection_eq_mergeSort]
  decide

end DocComment.Xml
