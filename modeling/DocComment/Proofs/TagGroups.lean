import DocComment.Proofs.Assembly
import DocComment.Proofs.BlockParts

/-! Tag lines and the lines that belong to them. Nothing that a block has gathered reaches over a tag
line: the buffers after two parts are those after the one and then those after the other. So groups
of different sections can change places, and only the order within a section counts. -/
namespace DocComment

/-- A tag line with the lines up to the next one. None of them ends the block. -/
structure TagGroup where
  head : Text
  more : List Text := []
  target : Section
  opens : (Line.readContent head).target? = some target
  untagged : ∀ raw ∈ more, (Line.readContent raw).target? = none
  runsOn : ∀ raw ∈ head :: more, ¬ endMarker <:+: raw

namespace TagGroup

def lines (g : TagGroup) : List Text := g.head :: g.more

def elements (g : TagGroup) : List Element := Element.ofLines (g.lines.map Line.readContent)

/-- The groups of each section are the same, in the same order. The one list is the other with groups
of different sections moved past each other. -/
def SameBySection (gs hs : List TagGroup) : Prop :=
  ∀ s, gs.filter (fun g => g.target = s) = hs.filter fun g => g.target = s

variable {gs hs : List TagGroup}

theorem SameBySection.mem (same : SameBySection gs hs) {g : TagGroup} (member : g ∈ gs) : g ∈ hs := by
  have inside : g ∈ gs.filter fun h => h.target = g.target :=
    List.mem_filter.mpr ⟨member, decide_eq_true rfl⟩
  rw [same g.target] at inside
  exact (List.mem_filter.mp inside).1

theorem sameBySection_swap {g h : TagGroup} (apart : g.target ≠ h.target) (rest : List TagGroup) :
    SameBySection (g :: h :: rest) (h :: g :: rest) := by
  intro s
  by_cases first : g.target = s
  · subst first
    simp [Ne.symm apart]
  · simp [List.filter_cons, first]

theorem elements_target (g : TagGroup) : ∀ e ∈ g.elements, e.target = g.target := by
  have untagged : ∀ line ∈ g.more.map Line.readContent, line.target? = none := by
    intro line member
    obtain ⟨raw, inside, rfl⟩ := List.mem_map.mp member
    exact g.untagged raw inside
  have opens := g.opens
  rw [elements, lines, List.map_cons]
  cases head : Line.readContent g.head with
  | tag s name text =>
    rw [head, Line.Content.target?, Option.some.injEq] at opens
    rw [← opens]
    exact Draft.elements_target untagged (Draft.tagged s name text)
  | begins | continuation | plain | blank =>
    rw [head] at opens
    cases opens

theorem runsOn_lines (gs : List TagGroup) : ∀ raw ∈ gs.flatMap lines, ¬ endMarker <:+: raw := by
  intro raw member
  obtain ⟨g, _, inside⟩ := List.mem_flatMap.mp member
  exact g.runsOn raw inside

/-- Each group adds its own elements, whatever stands in front. -/
theorem ofLines_append (front : List Line.Content) (gs : List TagGroup) :
    Element.ofLines (front ++ (gs.flatMap lines).map Line.readContent) =
      Element.ofLines front ++ gs.flatMap elements := by
  induction gs generalizing front with
  | nil => rw [List.flatMap_nil, List.flatMap_nil, List.map_nil, List.append_nil, List.append_nil]
  | cons g gs ih =>
    have tagged : (Line.readContent g.head).target? ≠ none := by
      rw [g.opens]
      exact Option.some_ne_none g.target
    have first := Element.ofLines_append_tagged tagged front (g.more.map Line.readContent)
    have rest := ih (front ++ g.lines.map Line.readContent)
    rw [List.flatMap_cons, List.map_append, ← List.append_assoc, rest, List.flatMap_cons,
      ← List.append_assoc]
    exact congrArg (· ++ gs.flatMap elements) first

end TagGroup

namespace Assembler

variable {m : Markup} {s : Section}

theorem shelf_append (m : Markup) (es fs : List Element) (s : Section) :
    shelf m (es ++ fs) s = shelf m es s ++ shelf m fs s := by
  rw [shelf, List.filter_append, List.flatMap_append, shelf, shelf]

theorem shelf_eq_all {es : List Element} (own : ∀ e ∈ es, e.target = s) :
    shelf m es s = es.flatMap (Element.render m) := by
  rw [shelf, List.filter_eq_self.mpr fun e member => decide_eq_true (own e member)]

theorem shelf_eq_nil {es : List Element} (other : ∀ e ∈ es, e.target ≠ s) : shelf m es s = [] := by
  rw [shelf, List.filter_eq_nil_iff.mpr fun e member same => other e member (of_decide_eq_true same),
    List.flatMap_nil]

/-- A section holds what its own groups bring. -/
theorem shelf_groups (m : Markup) (gs : List TagGroup) (s : Section) :
    shelf m (gs.flatMap TagGroup.elements) s =
      (gs.filter fun g => g.target = s).flatMap fun g => g.elements.flatMap (Element.render m) := by
  induction gs with
  | nil => rfl
  | cons g gs ih =>
    rw [List.flatMap_cons, shelf_append, ih]
    by_cases same : g.target = s
    · rw [List.filter_cons_of_pos (by simpa using same), List.flatMap_cons,
        shelf_eq_all fun e member => (g.elements_target e member).trans same]
    · rw [List.filter_cons_of_neg (by simpa using same),
        shelf_eq_nil fun e member => mt (g.elements_target e member).symm.trans same,
        List.nil_append]

/-- The buffers once all lines are taken and the last element is closed. -/
def buffersAfter (m : Markup) (raws : List Text) : Buffers :=
  ((({} : Assembler).feedAll m raws).close m).buffers

theorem get_buffersAfter (m : Markup) (raws : List Text) (s : Section) :
    (buffersAfter m raws).get s =
      shelf m (Element.ofLines ((blockLines raws).map Line.readContent)) s :=
  (feedAll_fresh_spec m raws).buffers s

theorem get_buffersAfter_append {xs ys : List Text} {y : Text}
    (runsOn : ∀ raw ∈ xs, ¬ endMarker <:+: raw) (tagged : (Line.readContent y).target? ≠ none) :
    (buffersAfter m (xs ++ y :: ys)).get s =
      (buffersAfter m xs).get s ++ (buffersAfter m (y :: ys)).get s := by
  have parts : blockLines (xs ++ y :: ys) = blockLines xs ++ blockLines (y :: ys) := by
    rw [blockLines_append runsOn, blockLines_eq_self runsOn]
  rw [get_buffersAfter, get_buffersAfter, get_buffersAfter, ← shelf_append, parts, List.map_append]
  rw [blockLines_cons y ys, List.map_cons, Element.ofLines_append_tagged tagged]

end Assembler

/-- The lines of a block by their parts: lines without a tag, groups, and at the end nothing or a line
that brings no more than the end marker. What stands behind that line is not looked at. -/
structure Outline where
  opening : List Text
  groups : List TagGroup
  closing : List Text
  untagged : ∀ raw ∈ opening, (Line.readContent raw).target? = none
  runsOn : ∀ raw ∈ opening, ¬ endMarker <:+: raw
  closes : ∀ last ∈ closing.head?, Line.read last = ⟨.blank, true⟩

namespace Outline

def lines (o : Outline) : List Text := o.opening ++ o.groups.flatMap TagGroup.lines ++ o.closing

/-- The elements of the opening lines and, one after the other, of the groups. The line at the end
opens an element only if it is the only line. -/
theorem elements_eq (o : Outline) (nonempty : o.opening ≠ [] ∨ o.groups ≠ []) :
    Element.ofLines ((blockLines o.lines).map Line.readContent) =
      Element.ofLines (o.opening.map Line.readContent) ++ o.groups.flatMap TagGroup.elements := by
  have runsOn : ∀ raw ∈ o.opening ++ o.groups.flatMap TagGroup.lines, ¬ endMarker <:+: raw :=
    List.forall_mem_append.mpr ⟨o.runsOn, TagGroup.runsOn_lines o.groups⟩
  have inner := TagGroup.ofLines_append (o.opening.map Line.readContent) o.groups
  rw [← List.map_append] at inner
  rw [lines, blockLines_append runsOn, ← inner]
  cases closing : o.closing with
  | nil => rw [blockLines, List.append_nil]
  | cons last behind =>
    have blank := o.closes last (by rw [closing]; rfl)
    have ends := (Line.endsBlock_iff last).mp (congrArg Line.endsBlock blank)
    have content : Line.readContent last = .blank := congrArg Line.content blank
    rw [blockLines_ending ends, List.map_append, List.map_singleton, content]
    obtain ⟨es, draft, same, added⟩ := Element.exists_last
      ((o.opening ++ o.groups.flatMap TagGroup.lines).map Line.readContent)
    rcases same with ⟨empty, _⟩ | same
    · rw [List.map_eq_nil_iff, List.append_eq_nil_iff, List.flatMap_eq_nil_iff] at empty
      rcases nonempty with opening | groups
      · exact absurd empty.1 opening
      · obtain ⟨g, gs, here⟩ := List.exists_cons_of_ne_nil groups
        exact absurd (empty.2 g (by rw [here]; exact List.mem_cons_self)) (List.cons_ne_nil _ _)
    · rw [added .blank rfl, same]
      rfl

theorem shelf_eq (o : Outline) (nonempty : o.opening ≠ [] ∨ o.groups ≠ []) (m : Markup) (s : Section) :
    (Assembler.buffersAfter m o.lines).get s =
      Assembler.shelf m (Element.ofLines (o.opening.map Line.readContent)) s ++
        (o.groups.filter fun g => g.target = s).flatMap fun g =>
          g.elements.flatMap (Element.render m) := by
  rw [Assembler.get_buffersAfter, o.elements_eq nonempty, Assembler.shelf_append, Assembler.shelf_groups]

/-- Every list of lines has its parts, unless its block ends on a line that says something. -/
theorem exists_lines_eq {raws : List Text}
    (alone : ∀ last ∈ raws.find? fun raw => (Line.read raw).endsBlock, Line.readContent last = .blank) :
    ∃ o : Outline, o.lines = raws := by
  induction raws with
  | nil => exact ⟨⟨[], [], [], nofun, nofun, nofun⟩, rfl⟩
  | cons raw raws ih =>
    by_cases ends : (Line.read raw).endsBlock = true
    · have blank := alone raw (List.find?_cons_of_pos ends)
      have closes : ∀ last ∈ (raw :: raws).head?, Line.read last = ⟨.blank, true⟩ := by
        rintro last ⟨⟩
        rw [← blank, ← ends]
        rfl
      exact ⟨⟨[], [], raw :: raws, nofun, nofun, closes⟩, rfl⟩
    · rw [List.find?_cons_of_neg (by exact ends)] at alone
      obtain ⟨o, rfl⟩ := ih alone
      have runsOn : ∀ r ∈ raw :: o.opening, ¬ endMarker <:+: r :=
        List.forall_mem_cons.mpr ⟨mt (Line.endsBlock_iff raw).mpr ends, o.runsOn⟩
      -- A tag line takes the opening lines below it into its group.
      cases target : (Line.readContent raw).target? with
      | some s =>
        let group : TagGroup := ⟨raw, o.opening, s, target, o.untagged, runsOn⟩
        refine ⟨⟨[], group :: o.groups, o.closing, nofun, nofun, o.closes⟩, ?_⟩
        simp [lines, group, TagGroup.lines]
      | none =>
        have untagged : ∀ r ∈ raw :: o.opening, (Line.readContent r).target? = none :=
          List.forall_mem_cons.mpr ⟨target, o.untagged⟩
        exact ⟨⟨raw :: o.opening, o.groups, o.closing, untagged, runsOn, o.closes⟩, rfl⟩

/-- The buffers after all lines only depend on the groups of each section. -/
theorem buffersAfter_eq (o : Outline) {groups : List TagGroup}
    (same : TagGroup.SameBySection o.groups groups) (m : Markup) :
    Assembler.buffersAfter m o.lines = Assembler.buffersAfter m { o with groups }.lines := by
  by_cases empty : o.groups = []
  · have other : groups = [] := by
      refine List.eq_nil_iff_forall_not_mem.mpr fun g member => ?_
      have inside := TagGroup.SameBySection.mem (fun s => (same s).symm) member
      rw [empty] at inside
      exact List.not_mem_nil inside
    rw [other, ← empty]
  · obtain ⟨g, rest, here⟩ := List.exists_cons_of_ne_nil empty
    have other : groups ≠ [] := List.ne_nil_of_mem (same.mem (by rw [here]; exact List.mem_cons_self))
    refine Buffers.ext fun s => ?_
    rw [o.shelf_eq (.inr empty), shelf_eq { o with groups } (.inr other), same s]

end Outline

/-- Groups are independent. What a tag line and the lines below it put into the buffers does not
depend on the lines above, and moving groups of different sections past each other leaves the document
as it is, as long as the opening lines stay in front and the line with the end marker stays at the end. -/
theorem tag_groups_independent (m : Markup) :
    (∀ (xs ys : List Text) (y : Text), (∀ raw ∈ xs, ¬ endMarker <:+: raw) →
      (Line.readContent y).target? ≠ none → ∀ s,
        (Assembler.buffersAfter m (xs ++ y :: ys)).get s =
          (Assembler.buffersAfter m xs).get s ++ (Assembler.buffersAfter m (y :: ys)).get s) ∧
    (∀ raws : List Text,
      (∀ last ∈ raws.find? fun raw => (Line.read raw).endsBlock, Line.readContent last = .blank) →
        ∃ o : Outline, o.lines = raws) ∧
    ∀ (o : Outline) (groups : List TagGroup), TagGroup.SameBySection o.groups groups →
      ∀ c d : Text, c.lines = o.lines → d.lines = { o with groups }.lines →
        render m c = render m d := by
  refine ⟨fun xs ys y runsOn tagged s => Assembler.get_buffersAfter_append runsOn tagged,
    fun raws alone => Outline.exists_lines_eq alone, ?_⟩
  intro o groups same c d first second
  have buffers := o.buffersAfter_eq same m
  rw [← first, ← second] at buffers
  exact congrArg (fun b : Buffers =>
    m.startTag "comment".toList none ++ b.flatten ++ m.endTag "comment".toList) buffers

def reference : TagGroup where
  head := "@see x".toList
  more := [" :  y".toList, "@".toList]
  target := .see
  opens := by decide
  untagged := by decide
  runsOn := by decide

def secondReference : TagGroup where
  head := "@see".toList
  target := .see
  opens := by decide
  untagged := by decide
  runsOn := by decide

def parameter : TagGroup where
  head := " : @param p".toList
  more := [[]]
  target := .param
  opens := by decide
  untagged := by decide
  runsOn := by decide

def referenceOutline : Outline where
  opening := ["(:~ a".toList]
  groups := [reference, parameter, secondReference]
  closing := [" :) b".toList, "@see".toList]
  untagged := by decide
  runsOn := by decide
  closes := by decide

theorem tag_groups_independent_moved :
    (Assembler.buffersAfter (.xml none) ["a".toList, "@see b".toList, "c:)".toList]).get .see =
        (Assembler.buffersAfter (.xml none) ["a".toList]).get .see ++
          (Assembler.buffersAfter (.xml none) ["@see b".toList, "c:)".toList]).get .see ∧
      render (.xml none) "(:~ a\n@see x\n :  y\n@\n : @param p\n\n@see\n :) b\n@see".toList =
        render (.xml none) "(:~ a\n : @param p\r\r@see x\n :  y\n@\n@see\n :) b\n@see".toList := by
  have independent := tag_groups_independent (.xml none)
  have apart : reference.target ≠ parameter.target := by decide
  have same := TagGroup.sameBySection_swap apart [secondReference]
  exact ⟨independent.1 ["a".toList] ["c:)".toList] "@see b".toList (by decide) (by decide) .see,
    independent.2.2 referenceOutline _ same _ _ (by decide +kernel) (by decide +kernel)⟩

end DocComment
