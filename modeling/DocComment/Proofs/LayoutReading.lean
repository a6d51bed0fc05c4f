import DocComment.Layout
import DocComment.Proofs.Assembly
import DocComment.Proofs.BlockParts
import DocComment.Proofs.DocumentReading
import DocComment.Proofs.LayoutLines
import DocComment.Proofs.SectionOrder

/-! Comments in the usual layout. The layout sets every line off by one blank, which is the margin
that the first line of a text fixes for the lines below it, so each of these is taken over as it was
written. -/
namespace DocComment

namespace Layout

/-- The lines as one text. -/
def joined : List Text → Text
  | [] => []
  | line :: lines => line ++ lines.flatMap ('\n' :: ·)

/-- No blank at either end, where trimming would take it away. -/
@[mk_iff]
structure Settled (text : Text) : Prop where
  head : ∀ c ∈ text.head?, isBlank c = false
  last : ∀ c ∈ text.getLast?, isBlank c = false

instance : DecidablePred Settled := fun text => decidable_of_iff _ (settled_iff text).symm

def Entry.element (e : Entry) : Element := ⟨e.target, e.name, e.text⟩

/-- An entry whose lines are read as they were meant. -/
@[mk_iff]
structure Entry.Canonical (e : Entry) : Prop where
  tagged : e.target ≠ .description
  customOnly : e.name ≠ none → e.target = .custom
  plain : ∀ n ∈ e.name, Plain n
  first : Bare e.first
  more : ∀ line ∈ e.more, Bare line
  settled : Settled e.text
  closed : ∀ c ∈ e.first.getLast?, isBlank c = false

instance : DecidablePred Entry.Canonical := fun e => decidable_of_iff _ (Entry.canonical_iff e).symm

/-- What an author has to keep to. -/
@[mk_iff]
structure Canonical (description : List Text) (entries : List Entry) : Prop where
  bare : ∀ line ∈ description, Bare line
  settled : Settled (joined description)
  entries : ∀ e ∈ entries, e.Canonical

instance (description : List Text) (entries : List Entry) : Decidable (Canonical description entries) :=
  decidable_of_iff _ (canonical_iff description entries).symm

def bodyLine (line : Text) : Text := " : ".toList ++ line

def Entry.tagLine (e : Entry) : Text := bodyLine (e.target.keyword ++ nameSuffix e.name ++ ' ' :: e.first)

def Entry.lines (e : Entry) : List Text := e.tagLine :: e.more.map bodyLine

/-- The lines of a block in front of the one that ends it. -/
def lines (description : List Text) (entries : List Entry) : List Text :=
  "(:~".toList :: (description.map bodyLine ++ entries.flatMap Entry.lines)

/-- What a line is read as behind the blank of the layout. -/
def content (line : Text) : Line.Content := .continuation (' ' :: line)

def Entry.contents (e : Entry) : List Line.Content :=
  .tag e.target e.name (' ' :: e.first) :: e.more.map content

def contents (description : List Text) (entries : List Entry) : List Line.Content :=
  .begins [] :: (description.map content ++ entries.flatMap Entry.contents)

variable {text : Text} {e : Entry} {description : List Text} {entries : List Entry}

theorem oneLine_append {s t : Text} (first : OneLine s) (second : OneLine t) : OneLine (s ++ t) :=
  List.forall_mem_append.mpr ⟨first, second⟩

theorem oneLine_of_solid (solid : text.Solid) : OneLine text := by
  intro c inside
  have visible := solid c inside
  constructor
  all_goals
    rintro rfl
    exact absurd visible (by decide)

theorem oneLine_bodyLine (h : OneLine text) : OneLine (bodyLine text) :=
  oneLine_append (by decide) h

theorem oneLine_nameSuffix {name? : Option Text} (plain : ∀ n ∈ name?, Plain n) :
    OneLine (nameSuffix name?) := by
  cases name? with
  | none => exact nofun
  | some name =>
    have solid := oneLine_of_solid (plain name rfl).solid
    exact List.forall_mem_cons.mpr ⟨by decide, solid⟩

theorem oneLine_tagLine (canonical : e.Canonical) : OneLine e.tagLine := by
  have keyword := oneLine_of_solid e.target.keyword_solid
  have rest : OneLine (' ' :: e.first) := List.forall_mem_cons.mpr ⟨by decide, canonical.first.oneLine⟩
  exact oneLine_bodyLine (oneLine_append (oneLine_append keyword (oneLine_nameSuffix canonical.plain)) rest)

theorem oneLine_lines (canonical : Canonical description entries) :
    ∀ raw ∈ lines description entries, OneLine raw := by
  have body : ∀ texts : List Text, (∀ line ∈ texts, Bare line) →
      ∀ raw ∈ texts.map bodyLine, OneLine raw := by
    intro texts bare raw member
    obtain ⟨line, inside, rfl⟩ := List.mem_map.mp member
    exact oneLine_bodyLine (bare line inside).oneLine
  have entry : ∀ raw ∈ entries.flatMap Entry.lines, OneLine raw := by
    intro raw member
    obtain ⟨e, inside, member⟩ := List.mem_flatMap.mp member
    rcases List.mem_cons.mp member with rfl | member
    · exact oneLine_tagLine (canonical.entries e inside)
    · exact body e.more (canonical.entries e inside).more raw member
  have first : OneLine "(:~".toList := by decide
  refine List.forall_mem_cons.mpr ⟨first, List.forall_mem_append.mpr ⟨?_, entry⟩⟩
  exact body description canonical.bare

theorem flatMap_writeLine (texts : List Text) :
    texts.flatMap writeLine = (texts.map bodyLine).flatMap (· ++ ['\n']) := by
  rw [List.flatMap_map]
  rfl

theorem write_eq (description : List Text) (entries : List Entry) :
    write description entries = (lines description entries).flatMap (· ++ ['\n']) ++ " :)".toList := by
  have entry : entries.flatMap Entry.write = (entries.flatMap Entry.lines).flatMap (· ++ ['\n']) := by
    rw [List.flatMap_assoc]
    refine List.flatMap_congr fun e _ => ?_
    rw [Entry.write, flatMap_writeLine, Entry.lines, List.flatMap_cons]
    rfl
  calc write description entries
    _ = "(:~\n".toList ++ description.flatMap writeLine ++ entries.flatMap Entry.write ++
        " :)".toList := rfl
    _ = "(:~\n".toList ++ ((description.map bodyLine).flatMap (· ++ ['\n']) ++
        (entries.flatMap Entry.lines).flatMap (· ++ ['\n'])) ++ " :)".toList := by
      rw [flatMap_writeLine, entry, List.append_assoc "(:~\n".toList]
    _ = (lines description entries).flatMap (· ++ ['\n']) ++ " :)".toList := by
      rw [lines, List.flatMap_cons, List.flatMap_append]
      rfl

theorem lines_write (canonical : Canonical description entries) :
    (write description entries).lines = lines description entries ++ [" :)".toList] := by
  have oneLine := oneLine_lines canonical
  have returns : '\r' ∉ write description entries := by
    intro inside
    rw [write_eq, List.mem_append] at inside
    rcases inside with inside | inside
    · obtain ⟨raw, member, inside⟩ := List.mem_flatMap.mp inside
      rcases List.mem_append.mp inside with inside | inside
      · exact (oneLine raw member _ inside).1 rfl
      · exact absurd inside (by decide)
    · exact absurd inside (by decide)
  have feeds : ∀ raw ∈ lines description entries, '\n' ∉ raw := fun raw member inside =>
    (oneLine raw member _ inside).2 rfl
  rw [Text.lines, Text.unifyBreaks_eq_self returns, write_eq]
  exact Text.cut_flatMap_append feeds (by decide) (by decide)

theorem read_tagLine_entry (canonical : e.Canonical) :
    Line.read e.tagLine = ⟨.tag e.target e.name (' ' :: e.first), false⟩ :=
  read_tagLine (Section.mem_tagged.mpr canonical.tagged) canonical.plain canonical.customOnly
    canonical.first

/-- No line in front of the last one ends the block, and each is read as what it was written for. -/
theorem read_lines (canonical : Canonical description entries) :
    (lines description entries).map Line.read = (contents description entries).map (⟨·, false⟩) := by
  have body : ∀ texts : List Text, (∀ line ∈ texts, Bare line) →
      (texts.map bodyLine).map Line.read = (texts.map content).map (⟨·, false⟩) := by
    intro texts bare
    simp only [List.map_map]
    exact List.map_congr_left fun line member => read_line (bare line member)
  have entry : (entries.flatMap Entry.lines).map Line.read =
      (entries.flatMap Entry.contents).map (⟨·, false⟩) := by
    simp only [List.map_flatMap]
    refine List.flatMap_congr fun e member => ?_
    have here := canonical.entries e member
    rw [Entry.lines, Entry.contents, List.map_cons, List.map_cons, read_tagLine_entry here,
      body e.more here.more]
  have first : Line.read "(:~".toList = ⟨.begins [], false⟩ := by decide
  rw [lines, contents, List.map_cons, List.map_cons, List.map_append, List.map_append, first,
    body description canonical.bare, entry]

theorem blockLines_write (canonical : Canonical description entries) :
    (blockLines (write description entries).lines).map Line.readContent =
      contents description entries ++ [.blank] := by
  have read := read_lines canonical
  have runsOn : ∀ raw ∈ lines description entries, ¬ endMarker <:+: raw := by
    intro raw member ends
    have inside := List.mem_map_of_mem (f := Line.read) member
    rw [read] at inside
    obtain ⟨c, _, same⟩ := List.mem_map.mp inside
    rw [← Line.endsBlock_iff, ← same] at ends
    exact Bool.false_ne_true ends
  have contents_eq : (lines description entries).map Line.readContent = contents description entries := by
    have parts := congrArg (List.map Line.content) read
    simp only [List.map_map] at parts
    rw [show Line.content ∘ (Line.mk · false) = id from rfl, List.map_id] at parts
    exact parts
  have last : endMarker <:+: " :)".toList := by decide
  rw [lines_write canonical, blockLines_append runsOn, blockLines_ending last, List.map_append, contents_eq]
  rfl

/-- The blank of the layout is all that is dropped. -/
theorem dropIndent_lead (text : Text) : Text.dropIndent (' ' :: text) 1 = text := by
  rw [Text.dropIndent_cons_blank rfl, Text.dropIndent_zero]

theorem leadingBlanks_lead (head : ∀ c ∈ text.head?, isBlank c = false) :
    Text.leadingBlanks (' ' :: text) = 1 := by
  rw [Text.leadingBlanks_cons_blank rfl, Text.leadingBlanks_eq_zero head]

end Layout

namespace Draft

variable {d : Draft}

/-- Behind the margin of the layout, further lines are added as they were written. -/
theorem elements_content (margin : d.margin = 1) {texts : List Text}
    (started : texts ≠ [] → d.text ≠ []) (rest : List Line.Content) :
    d.elements (texts.map Layout.content ++ rest) =
      { d with text := d.text ++ texts.flatMap ('\n' :: ·) }.elements rest := by
  induction texts generalizing d with
  | nil =>
    rw [List.map_nil, List.nil_append, List.flatMap_nil, List.append_nil]
  | cons line texts ih =>
    have filled := started (List.cons_ne_nil line texts)
    have added : d.add (Layout.content line) = { d with text := d.text ++ '\n' :: line } := by
      rw [Layout.content, add, addLine, if_neg filled, if_neg filled, margin,
        Layout.dropIndent_lead, List.append_assoc]
      rfl
    have later := ih (d := { d with text := d.text ++ '\n' :: line }) margin (by simp)
    rw [← added] at later
    rw [List.map_cons, List.cons_append, List.flatMap_cons]
    refine later.trans ?_
    rw [added, List.append_assoc]

end Draft

namespace Layout

variable {e : Entry} {description : List Text} {entries : List Entry}

theorem finish_settled {s : Section} {name : Option Text} {text : Text} (settled : Settled text)
    (margin : Nat) : (Draft.mk s name text margin).finish = ⟨s, name, text⟩ := by
  rw [Draft.finish, Text.trimEnd_eq_self settled.last]

theorem first_solid {first rest : Text} (settled : Settled (first ++ rest)) :
    ∀ c ∈ first.head?, isBlank c = false := by
  intro c starts
  refine settled.head c ?_
  rw [List.head?_append, starts]
  rfl

/-- A text that starts with a break would be trimmed. -/
theorem first_ne_nil {first : Text} {more : List Text}
    (settled : Settled (first ++ more.flatMap ('\n' :: ·))) (further : more ≠ []) : first ≠ [] := by
  rintro rfl
  obtain ⟨line, rest, rfl⟩ := List.exists_cons_of_ne_nil further
  exact absurd (settled.head '\n' rfl) (by decide)

theorem tagged_entry (canonical : e.Canonical) :
    Draft.tagged e.target e.name (' ' :: e.first) = ⟨e.target, e.name, e.first, 1⟩ := by
  have head := first_solid canonical.settled
  rw [Draft.tagged, Text.trim, Text.trimStart_cons_blank rfl, Text.trimStart_eq_self head,
    Text.trimEnd_eq_self canonical.closed, leadingBlanks_lead head]

/-- The tag lines end the draft that is open and open one of their own. -/
theorem elements_entries (canonical : ∀ e ∈ entries, e.Canonical) (d : Draft) :
    d.elements (entries.flatMap Entry.contents ++ [.blank]) = d.finish :: entries.map Entry.element := by
  induction entries generalizing d with
  | nil => rfl
  | cons e entries ih =>
    have here := canonical e List.mem_cons_self
    have read := Draft.elements_content (d := ⟨e.target, e.name, e.first, 1⟩) rfl
      (first_ne_nil here.settled) (entries.flatMap Entry.contents ++ [.blank])
    have rest := ih (fun x member => canonical x (List.mem_cons_of_mem e member))
    rw [List.flatMap_cons, List.append_assoc, Entry.contents, List.cons_append, Draft.elements,
      tagged_entry here, read, rest]
    exact congrArg (fun x => d.finish :: x :: _) (finish_settled here.settled 1)

/-- The elements of a block are those that were written into it, and the description in front. -/
theorem elementsOf_write (canonical : Canonical description entries) :
    elementsOf (write description entries) =
      ⟨.description, none, joined description⟩ :: entries.map Entry.element := by
  have rest := elements_entries canonical.entries
  rw [elementsOf, blockLines_write canonical]
  cases description with
  | nil => exact rest Draft.description
  | cons line texts =>
    have head := first_solid canonical.settled
    have opened : Draft.description.add (content line) = ⟨.description, none, line, 1⟩ := by
      simp only [content, Draft.add, Draft.addLine, Draft.description, if_true, List.nil_append,
        leadingBlanks_lead head, dropIndent_lead]
    have read := Draft.elements_content (d := ⟨.description, none, line, 1⟩) rfl
      (first_ne_nil canonical.settled) (entries.flatMap Entry.contents ++ [.blank])
    have parts : Element.ofLines (contents (line :: texts) entries ++ [.blank]) =
        (Draft.description.add (content line)).elements
          (texts.map content ++ (entries.flatMap Entry.contents ++ [.blank])) := by
      rw [contents, List.cons_append, List.append_assoc]
      rfl
    rw [parts, opened, read, rest]
    exact congrArg (· :: _) (finish_settled canonical.settled 1)

/-- The description, and behind it the entries in the stable order of their sections. -/
def children (description : List Text) (entries : List Entry) : List Element :=
  ⟨.description, none, joined description⟩ :: (entries.map Entry.element).mergeSort Element.notAfter

theorem bySection_write (canonical : Canonical description entries) :
    Element.bySection (elementsOf (write description entries)) = children description entries := by
  have least : ∀ x ∈ entries.map Entry.element,
      Element.notAfter ⟨.description, none, joined description⟩ x = true := fun x _ =>
    decide_eq_true (Fin.zero_le x.target.index)
  rw [elementsOf_write canonical, Element.bySection_cons least, Element.bySection_eq_mergeSort, children]

/-- A comment in the usual layout is rendered as its author wrote it: the children of the document are
the description and the entries, with every name and every line of their texts unchanged. -/
theorem render_write (canonical : Canonical description entries) :
    (∀ m, render m (write description entries) = m.startTag "comment".toList none ++
      (children description entries).flatMap (Element.render m) ++ m.endTag "comment".toList) ∧
    Xml.readDocument none (render (Markup.xml none) (write description entries)) =
      some (children description entries) := by
  have order := bySection_write canonical
  refine ⟨fun m => ?_, ?_⟩
  · rw [render_eq_documentOf, documentOf, order]
  · rw [render_eq_documentOf, Xml.readDocument_documentOf Xml.named_none (elementsOf_clean _), order]

def mixedEntries : List Entry :=
  [⟨.see, none, "x".toList, ["   y]]>".toList, [], " z".toList]⟩,
   ⟨.custom, some "k\"<:".toList, ") v".toList, []⟩, ⟨.param, none, "a : first".toList, []⟩,
   ⟨.see, none, [], []⟩]

theorem render_write_mixed :
    Canonical ["Adds.".toList, [], "  (fast)".toList] mixedEntries ∧
      Xml.readDocument none
          (render (Markup.xml none) (write ["Adds.".toList, [], "  (fast)".toList] mixedEntries)) =
        some [⟨.description, none, "Adds.\n\n  (fast)".toList⟩, ⟨.param, none, "a : first".toList⟩,
          ⟨.see, none, "x\n   y]]>\n\n z".toList⟩, ⟨.see, none, []⟩,
          ⟨.custom, some "k\"<:".toList, ") v".toList⟩] := by
  have canonical : Canonical ["Adds.".toList, [], "  (fast)".toList] mixedEntries := by decide
  refine ⟨canonical, ?_⟩
  rw [(render_write canonical).2, children, ← Element.bySection_eq_mergeSort]
  decide

end Layout
end DocComment
