import DocComment.Proofs.Assembly
import DocComment.Proofs.BlockParts
import DocComment.Proofs.ElementText
import Mathlib.Data.List.Forall2
import Mathlib.Data.List.SplitBy

/-! Texts line by line. The lines of an element run from a tag line up to the next, and its text is made
of consecutive ones of them, a line of text for each. From every line some blanks in front are removed, and
the blanks behind the text of a tag line and behind the whole as well. Lines that are left out bring nothing
but blanks. -/
namespace DocComment

variable {lines before inner : List Line.Content} {line : Line.Content} {pieces : List Text} {text piece : Text}

/-- The lines of each element, in the order of the lines: a tag line opens a passage of its own. -/
def passages (lines : List Line.Content) : List (List Line.Content) :=
  lines.splitBy fun _ line => line.target?.isNone

/-- The lines that bring a text, be it empty. -/
def spoken (lines : List Line.Content) : List Line.Content := lines.filter (· ≠ .blank)

/-- A piece is the text of a line without some blanks in front of it. The piece of a tag line, and the
last one of a text, have no blanks behind them either. -/
def IsPiece (last : Bool) (line : Line.Content) (piece : Text) : Prop :=
  ∃ blanks kept, Text.Blank blanks ∧ line.text = blanks ++ kept ∧
    piece = if last ∨ line.target?.isSome then kept.trimEnd else kept

/-- The lines `inner` and `last` of some lines make up a text, and there are only blanks around them. -/
structure MadeOf (lines : List Line.Content) (text : Text) (inner : List Line.Content) (last : Line.Content) :
    Prop where
  around : ∃ before after, spoken lines = before ++ (inner ++ [last]) ++ after ∧
    (∀ line ∈ before, line.text.Blank) ∧ ∀ line ∈ after, line.text.Blank
  pieces : ∃ pieces piece, text.splitOn '\n' = pieces ++ [piece] ∧ List.Forall₂ (IsPiece false) inner pieces ∧
    IsPiece true last piece
  start : (∃ c ∈ text.head?, isBlank c = true) → ∃ t, (inner ++ [last]).head? = some (.plain t)

/-- What the element made of some lines has of them. -/
structure Written (lines : List Line.Content) (e : Element) : Prop where
  target : e.target = (lines.head?.bind Line.Content.target?).getD .description
  name : e.name = lines.head?.bind Line.Content.name?
  silent : (∀ line ∈ lines, line.text.Blank) → e.text = []
  kept : (∃ line ∈ lines, ¬ line.text.Blank) → ∃ inner last, MadeOf lines e.text inner last
  solidEnd : ∀ c ∈ e.text.getLast?, isBlank c = false

theorem spoken_concat (spoke : line ≠ .blank) (lines : List Line.Content) :
    spoken (lines ++ [line]) = spoken lines ++ [line] := by
  simp [spoken, spoke]

theorem spoken_concat_blank (lines : List Line.Content) : spoken (lines ++ [.blank]) = spoken lines := by
  simp [spoken]

theorem mem_spoken_of_solid (member : line ∈ lines) (solid : ¬ line.text.Blank) : line ∈ spoken lines := by
  refine List.mem_filter.mpr ⟨member, decide_eq_true ?_⟩
  rintro rfl
  exact solid nofun

theorem intercalate_concat (nonempty : pieces ≠ []) (piece : Text) :
    ['\n'].intercalate (pieces ++ [piece]) = ['\n'].intercalate pieces ++ '\n' :: piece := by
  induction pieces with
  | nil => exact absurd rfl nonempty
  | cons first pieces ih =>
    by_cases empty : pieces = []
    · subst empty
      simp [List.intercalate_cons_cons]
    · have more : pieces ++ [piece] ≠ [] := List.append_ne_nil_of_left_ne_nil empty _
      rw [List.cons_append, List.intercalate_cons_of_ne_nil more, List.intercalate_cons_of_ne_nil empty, ih empty]
      exact (List.append_assoc _ _ _).symm

/-- Blank lines at the end of a text are trimmed away with their breaks. -/
theorem trimEnd_intercalate_append (nonempty : pieces ≠ []) {more : List Text}
    (blank : ∀ piece ∈ more, Text.Blank piece) :
    Text.trimEnd (['\n'].intercalate (pieces ++ more)) = Text.trimEnd (['\n'].intercalate pieces) := by
  induction more using List.reverseRecOn with
  | nil => rw [List.append_nil]
  | append_singleton more piece ih =>
    obtain ⟨earlier, last⟩ := List.forall_mem_append.mp blank
    have breaks : Text.Blank ('\n' :: piece) :=
      List.forall_mem_cons.mpr ⟨by decide, last piece (List.mem_singleton_self piece)⟩
    rw [← List.append_assoc, intercalate_concat (List.append_ne_nil_of_left_ne_nil nonempty more),
      Text.trimEnd_append_blanks _ breaks, ih earlier]

theorem trimEnd_intercalate_concat (solid : ¬ Text.Blank piece) (pieces : List Text) :
    Text.trimEnd (['\n'].intercalate (pieces ++ [piece])) = ['\n'].intercalate (pieces ++ [piece.trimEnd]) := by
  by_cases empty : pieces = []
  · subst empty
    simp
  · rw [intercalate_concat empty, intercalate_concat empty, List.append_cons, Text.trimEnd_append solid,
      ← List.append_cons]

/-- The text of a draft of some lines, before its end is trimmed: `before` brought blanks only, and each of
`inner` one of the pieces. -/
structure Gathering (lines before inner : List Line.Content) (pieces : List Text) (text : Text) : Prop where
  parts : spoken lines = before ++ inner
  silent : ∀ line ∈ before, line.text.Blank
  paired : List.Forall₂ (IsPiece false) inner pieces
  joined : text = ['\n'].intercalate pieces
  first : pieces.head? ≠ some []
  start : (∃ c ∈ text.head?, isBlank c = true) → ∃ t, inner.head? = some (.plain t)

/-- What the lines read so far have made of the text of a draft. -/
def Gathered (lines : List Line.Content) (text : Text) : Prop :=
  ∃ before inner pieces, Gathering lines before inner pieces text

theorem IsPiece.subset {last : Bool} (h : IsPiece last line piece) : piece ⊆ line.text := by
  obtain ⟨blanks, kept, _, parts, rfl⟩ := h
  rw [parts]
  split
  · exact List.Subset.trans (Text.trimEnd_prefix_self kept).subset (List.subset_append_right blanks kept)
  · exact List.subset_append_right blanks kept

theorem IsPiece.blank {last : Bool} (h : IsPiece last line piece) (blank : line.text.Blank) : piece.Blank :=
  fun c member => blank c (h.subset member)

theorem IsPiece.solid {last : Bool} (h : IsPiece last line piece) (solid : ¬ line.text.Blank) : ¬ piece.Blank := by
  obtain ⟨blanks, kept, blank, parts, rfl⟩ := h
  have inner : ¬ kept.Blank := by
    intro all
    rw [parts] at solid
    exact solid (List.forall_mem_append.mpr ⟨blank, all⟩)
  split
  · rwa [← Text.trimEnd_eq_nil_iff, Text.trimEnd_trimEnd, Text.trimEnd_eq_nil_iff]
  · exact inner

theorem IsPiece.trimEnd (h : IsPiece false line piece) : IsPiece true line piece.trimEnd := by
  obtain ⟨blanks, kept, blank, parts, rfl⟩ := h
  refine ⟨blanks, kept, blank, parts, ?_⟩
  rw [if_pos (Or.inl rfl)]
  split
  · exact Text.trimEnd_trimEnd kept
  · rfl

namespace Gathering

theorem nil : Gathering [] [] [] [] [] := ⟨rfl, nofun, .nil, rfl, nofun, nofun⟩

theorem text_eq_nil_iff (h : Gathering lines before inner pieces text) : text = [] ↔ pieces = [] := by
  rw [h.joined]
  constructor
  · intro empty
    rcases pieces with _ | ⟨first, _ | ⟨next, more⟩⟩
    · rfl
    · rw [List.intercalate_singleton] at empty
      exact absurd (congrArg some empty) h.first
    · rw [List.intercalate_cons_cons, List.append_assoc] at empty
      exact absurd (congrArg some (List.append_eq_nil_iff.mp empty).1) h.first
  · rintro rfl
    rfl

/-- The first line that brings a text, unless that is blank and leaves none. -/
theorem concat_first (h : Gathering lines before inner pieces []) (spoke : line ≠ .blank)
    (isPiece : IsPiece false line piece)
    (start : (∃ c ∈ piece.head?, isBlank c = true) → ∃ t, line = .plain t) :
    Gathered (lines ++ [line]) piece := by
  obtain rfl := h.text_eq_nil_iff.mp rfl
  obtain rfl := List.forall₂_nil_right_iff.mp h.paired
  have parts : spoken (lines ++ [line]) = before ++ [line] := by
    rw [spoken_concat spoke, h.parts, List.append_nil]
  by_cases empty : piece = []
  · subst empty
    have blank : line.text.Blank := by
      by_contra solid
      exact isPiece.solid solid nofun
    refine ⟨before ++ [line], [], [], ?_, ?_, .nil, rfl, nofun, nofun⟩
    · rw [parts, List.append_nil]
    · exact List.forall_mem_append.mpr ⟨h.silent, List.forall_mem_singleton.mpr blank⟩
  · refine ⟨before, [line], [piece], parts, h.silent, .cons isPiece .nil, ?_, ?_, ?_⟩
    · exact List.intercalate_singleton.symm
    · exact fun same => empty (Option.some.inj same)
    · intro blank
      obtain ⟨t, rfl⟩ := start blank
      exact ⟨t, rfl⟩

/-- Once there is text, a further line brings a piece of its own, be it empty. -/
theorem concat (h : Gathering lines before inner pieces text) (nonempty : text ≠ []) (spoke : line ≠ .blank)
    (isPiece : IsPiece false line piece) :
    Gathering (lines ++ [line]) before (inner ++ [line]) (pieces ++ [piece]) (text ++ '\n' :: piece) := by
  have somePiece : pieces ≠ [] := mt h.text_eq_nil_iff.mpr nonempty
  have someLine : inner ≠ [] := by
    rintro rfl
    exact somePiece (List.forall₂_nil_left_iff.mp h.paired)
  constructor
  · rw [spoken_concat spoke, h.parts, List.append_assoc]
  · exact h.silent
  · exact List.rel_append h.paired (.cons isPiece .nil)
  · rw [intercalate_concat somePiece, h.joined]
  · rw [List.head?_append_of_ne_nil _ somePiece]
    exact h.first
  · rw [List.head?_append_of_ne_nil _ nonempty, List.head?_append_of_ne_nil _ someLine]
    exact h.start

theorem concat_blank (h : Gathering lines before inner pieces text) :
    Gathering (lines ++ [.blank]) before inner pieces text :=
  ⟨by rw [spoken_concat_blank, h.parts], h.silent, h.paired, h.joined, h.first, h.start⟩

end Gathering

theorem isPiece_dropIndent (untagged : line.target? = none) (count : Nat) :
    IsPiece false line (line.text.dropIndent count) := by
  obtain ⟨blanks, blank, parts⟩ := line.text.exists_blanks_dropIndent count
  refine ⟨blanks, line.text.dropIndent count, blank, parts, ?_⟩
  rw [untagged]
  rfl

theorem isPiece_trim (tagged : line.target?.isSome) : IsPiece false line line.text.trim := by
  refine ⟨line.text.takeWhile isBlank, line.text.trimStart, fun c => List.mem_takeWhile_imp, ?_, ?_⟩
  · exact List.takeWhile_append_dropWhile.symm
  · rw [if_pos (Or.inr tagged), Text.trim]

namespace Draft

variable {d : Draft} {group : List Line.Content} {first : Line.Content}

theorem gathered_tagged (s : Section) (name : Option Text) (text : Text) :
    Gathered [.tag s name text] (tagged s name text).text := by
  refine Gathering.nil.concat_first nofun (isPiece_trim rfl) ?_
  rintro ⟨c, head, blank⟩
  have solid := Text.isBlank_head_trimStart (Text.head?_trimEnd head)
  exact absurd blank (Bool.eq_false_iff.mp solid)

theorem gathered_addLine (h : Gathering lines before inner pieces d.text) (line : Line.Content)
    (spoke : line ≠ .blank) (untagged : line.target? = none) {margin : Nat}
    (flush : d.text = [] → (∃ t, line = .plain t) ∨ margin = line.text.leadingBlanks) :
    Gathered (lines ++ [line]) (d.addLine margin line.text).text := by
  have isPiece := isPiece_dropIndent untagged margin
  by_cases empty : d.text = []
  · rw [empty] at h
    rw [addLine, if_pos empty]
    refine h.concat_first spoke isPiece ?_
    rintro ⟨c, head, blank⟩
    rcases flush empty with plain | rfl
    · exact plain
    · rw [Text.dropIndent_leadingBlanks] at head
      exact absurd blank (Bool.eq_false_iff.mp (Text.isBlank_head_trimStart head))
  · rw [addLine, if_neg empty, List.append_assoc]
    exact ⟨_, _, _, h.concat empty spoke isPiece⟩

/-- What holds of the text of an open element, when a further line belongs to it. -/
theorem gathered_add (h : Gathered lines d.text)
    (untagged : line.target? = none) :
    Gathered (lines ++ [line]) (d.add line).text := by
  obtain ⟨before, inner, pieces, h⟩ := h
  cases line with
  | tag s name text => cases untagged
  | begins text => exact gathered_addLine h (.begins text) nofun rfl fun _ => .inr rfl
  | continuation text => exact gathered_addLine h (.continuation text) nofun rfl fun empty => .inr (if_pos empty)
  | plain text => exact gathered_addLine h (.plain text) nofun rfl fun _ => .inl ⟨text, rfl⟩
  | blank => exact ⟨before, inner, pieces, h.concat_blank⟩

end Draft

theorem exists_line_of_piece {last : Bool} (paired : List.Forall₂ (IsPiece last) lines pieces)
    (member : piece ∈ pieces) : ∃ line ∈ lines, IsPiece last line piece := by
  induction paired with
  | nil => cases member
  | @cons line first lines pieces isPiece _ ih =>
    rcases List.mem_cons.mp member with rfl | member
    · exact ⟨line, List.mem_cons_self, isPiece⟩
    · obtain ⟨other, inside, isPiece⟩ := ih member
      exact ⟨other, List.mem_cons_of_mem line inside, isPiece⟩

theorem blank_of_paired {last : Bool} (paired : List.Forall₂ (IsPiece last) lines pieces)
    (blank : ∀ line ∈ lines, line.text.Blank) : ∀ piece ∈ pieces, Text.Blank piece := by
  intro piece member
  obtain ⟨line, inside, isPiece⟩ := exists_line_of_piece paired member
  exact isPiece.blank (blank line inside)

/-- Pieces of lines are found again in the text that they are joined to. -/
theorem splitOn_joined {last : Line.Content} (front : List.Forall₂ (IsPiece false) inner pieces)
    (isPiece : IsPiece true last piece) (absent : ∀ line ∈ inner ++ [last], '\n' ∉ line.text) :
    (['\n'].intercalate (pieces ++ [piece])).splitOn '\n' = pieces ++ [piece] := by
  obtain ⟨earlier, here⟩ := List.forall_mem_append.mp absent
  refine List.splitOn_intercalate '\n' ?_ (List.append_ne_nil_of_right_ne_nil pieces (List.cons_ne_nil _ []))
  rw [List.forall_mem_append, List.forall_mem_singleton]
  constructor
  · intro piece member inside
    obtain ⟨line, source, isPiece⟩ := exists_line_of_piece front member
    exact earlier line source (isPiece.subset inside)
  · intro inside
    exact here last (List.mem_singleton_self last) (isPiece.subset inside)

/-- Lines and their pieces, cut at the last line that is more than blanks. -/
theorem exists_last_solid (paired : List.Forall₂ (IsPiece false) lines pieces)
    (solid : ∃ line ∈ lines, ¬ line.text.Blank) :
    ∃ inner last after pieces' piece more, lines = inner ++ last :: after ∧ pieces = pieces' ++ piece :: more ∧
      List.Forall₂ (IsPiece false) inner pieces' ∧ IsPiece false last piece ∧ ¬ last.text.Blank ∧
      (∀ line ∈ after, line.text.Blank) ∧ ∀ piece ∈ more, Text.Blank piece := by
  induction paired with
  | nil =>
    obtain ⟨line, member, _⟩ := solid
    cases member
  | @cons line piece lines pieces isPiece paired ih =>
    by_cases later : ∃ line ∈ lines, ¬ line.text.Blank
    · obtain ⟨inner, last, after, pieces', piece', more, parts, parts', front, rest⟩ := ih later
      refine ⟨line :: inner, last, after, piece :: pieces', piece', more, ?_, ?_, .cons isPiece front, rest⟩
      · rw [parts, List.cons_append]
      · rw [parts', List.cons_append]
    · have blank : ∀ line ∈ lines, line.text.Blank := by
        intro other member
        by_contra more
        exact later ⟨other, member, more⟩
      have here : ¬ line.text.Blank := by
        obtain ⟨other, member, solid⟩ := solid
        rcases List.mem_cons.mp member with rfl | member
        · exact solid
        · exact absurd (blank other member) solid
      exact ⟨[], line, lines, [], piece, pieces, rfl, rfl, .nil, isPiece, here, blank, blank_of_paired paired blank⟩

namespace Gathering

theorem mem_of_mem_inner (h : Gathering lines before inner pieces text) (member : line ∈ inner) : line ∈ lines := by
  have spoke : line ∈ spoken lines := by
    rw [h.parts]
    exact List.mem_append_right before member
  exact List.mem_of_mem_filter spoke

theorem trimEnd_eq_nil (h : Gathering lines before inner pieces text)
    (blank : ∀ line ∈ lines, line.text.Blank) : text.trimEnd = [] := by
  have blankPieces := blank_of_paired h.paired fun line member => blank line (h.mem_of_mem_inner member)
  rw [h.joined]
  cases pieces with
  | nil => rfl
  | cons first more =>
    obtain ⟨first', more'⟩ := List.forall_mem_cons.mp blankPieces
    have front := trimEnd_intercalate_append (List.cons_ne_nil first []) more'
    rw [List.intercalate_singleton, Text.trimEnd_eq_nil_iff.mpr first'] at front
    exact front

theorem madeOf (h : Gathering lines before inner pieces text) (feeds : ∀ line ∈ lines, '\n' ∉ line.text)
    (solid : ∃ line ∈ lines, ¬ line.text.Blank) : ∃ inner last, MadeOf lines text.trimEnd inner last := by
  obtain ⟨line, member, solid⟩ := solid
  have inside : ∃ line ∈ inner, ¬ line.text.Blank := by
    have spoke := mem_spoken_of_solid member solid
    rw [h.parts] at spoke
    rcases List.mem_append.mp spoke with early | inside
    · exact absurd (h.silent line early) solid
    · exact ⟨line, inside, solid⟩
  obtain ⟨inner', last, after, pieces', piece, more, parts, parts', front, isPiece, solid, blank, rest⟩ :=
    exists_last_solid h.paired inside
  have text' : text.trimEnd = ['\n'].intercalate (pieces' ++ [piece.trimEnd]) := by
    rw [h.joined, parts', List.append_cons, trimEnd_intercalate_append (by simp) rest,
      trimEnd_intercalate_concat (isPiece.solid solid)]
  refine ⟨inner', last, ?_, ?_, ?_⟩
  · refine ⟨before, after, ?_, h.silent, blank⟩
    rw [h.parts, parts, List.append_assoc before, List.append_cons]
  · refine ⟨pieces', piece.trimEnd, ?_, front, isPiece.trimEnd⟩
    rw [text']
    refine splitOn_joined front isPiece.trimEnd fun line member => feeds line (h.mem_of_mem_inner ?_)
    rw [parts, List.append_cons]
    exact List.mem_append_left after member
  · rintro ⟨c, head, blank⟩
    obtain ⟨t, first⟩ := h.start ⟨c, Text.head?_trimEnd head, blank⟩
    refine ⟨t, ?_⟩
    rw [parts] at first
    cases inner' <;> exact first

end Gathering

namespace Draft

variable {d : Draft} {first : Line.Content} {group : List Line.Content}

/-- An element whose open draft has been gathered from some lines is what these lines make. -/
theorem written_finish (h : Gathered (first :: group) d.text)
    (target : d.target = first.target?.getD .description) (name : d.name = first.name?)
    (feeds : ∀ line ∈ first :: group, '\n' ∉ line.text) : Written (first :: group) d.finish := by
  obtain ⟨before, inner, pieces, h⟩ := h
  exact ⟨target, name, h.trimEnd_eq_nil, h.madeOf feeds, fun _ => Text.getLast?_trimEnd⟩

theorem passages_untagged (untagged : ∀ line ∈ group, line.target? = none) :
    passages (first :: group) = [first :: group] := by
  refine List.splitBy_of_isChain (List.cons_ne_nil first group) ?_
  induction group generalizing first with
  | nil => exact .singleton first
  | cons line group ih =>
    obtain ⟨here, later⟩ := List.forall_mem_cons.mp untagged
    exact .cons_cons (Option.isNone_iff_eq_none.mpr here) (ih later)

theorem passages_append_tagged (s : Section) (name : Option Text) (text : Text) (lines : List Line.Content) :
    passages (group ++ .tag s name text :: lines) = passages group ++ passages (.tag s name text :: lines) :=
  List.splitBy_append_cons lines fun _ _ => rfl

theorem written_elements (h : Gathered (first :: group) d.text)
    (target : d.target = first.target?.getD .description) (name : d.name = first.name?)
    (untagged : ∀ line ∈ group, line.target? = none)
    (feeds : ∀ line ∈ first :: group ++ lines, '\n' ∉ line.text) :
    List.Forall₂ Written (passages (first :: group ++ lines)) (d.elements lines) := by
  induction lines generalizing d first group with
  | nil =>
    rw [List.append_nil] at feeds ⊢
    rw [passages_untagged untagged]
    exact .cons (written_finish h target name feeds) .nil
  | cons line lines ih =>
    cases line with
    | tag s name' text =>
      obtain ⟨here, later⟩ := List.forall_mem_append.mp feeds
      rw [passages_append_tagged, passages_untagged untagged]
      exact .cons (written_finish h target name here) (ih (gathered_tagged s name' text) rfl rfl nofun later)
    | begins text | continuation text | plain text | blank =>
      rw [elements_cons rfl]
      rw [List.append_cons] at feeds ⊢
      refine ih (gathered_add h rfl) ?_ ?_ ?_ feeds
      · rw [add_target, target]
      · rw [add_name, name]
      · exact List.forall_mem_append.mpr ⟨untagged, List.forall_mem_singleton.mpr rfl⟩

end Draft

theorem Element.written_ofLines (feeds : ∀ line ∈ lines, '\n' ∉ line.text) :
    List.Forall₂ Written (passages lines) (ofLines lines) := by
  cases lines with
  | nil => exact .nil
  | cons first lines =>
    cases first with
    | tag s name text => exact Draft.written_elements (Draft.gathered_tagged s name text) rfl rfl nofun feeds
    | begins text | continuation text | plain text | blank =>
      have opened : Gathered [] Draft.description.text := ⟨[], [], [], .nil⟩
      exact Draft.written_elements (Draft.gathered_add opened rfl) rfl rfl nofun feeds

/-- No line is lost, doubled or moved: in the document of any comment, the text of each element is made of
the lines of its passage. -/
theorem render_keeps_lines (m : Markup) (comment : Text) :
    ∃ es, render m comment = documentOf m es ∧
      List.Forall₂ Written (passages ((blockLines comment.lines).map Line.readContent)) es := by
  refine ⟨elementsOf comment, render_eq_documentOf m comment, Element.written_ofLines ?_⟩
  intro line member inside
  obtain ⟨raw, origin, rfl⟩ := List.mem_map.mp member
  have absent := (Text.not_mem_of_mem_lines (blockLines_subset comment.lines origin)).2
  exact absent (Line.readContent_text_subset raw inside)

end DocComment
