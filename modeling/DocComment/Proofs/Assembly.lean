import DocComment.Block
import DocComment.Proofs.ByteLines
import DocComment.Proofs.CharacterData

/-! The assembler refines the elements of a block. Its state stands for a list of finished elements
and at most one draft: what lies in a buffer before `contentStart` is finished markup and one start
tag, and what lies behind is the escaped text of the draft. Every line keeps this, whatever markup
the elements are written in. -/
namespace DocComment.Assembler

variable {m : Markup} {es : List Element} {d : Draft} {a : Assembler}

/-- The finished markup of a section. -/
def shelf (m : Markup) (es : List Element) (s : Section) : Text :=
  (es.filter fun e => e.target = s).flatMap (Element.render m)

/-- What stands in the buffer of a draft before its text. -/
def lead (m : Markup) (es : List Element) (d : Draft) : Text :=
  shelf m es d.target ++ (m.startTag d.target.name d.name ++ Xml.cdataStart)

structure Drafting (m : Markup) (es : List Element) (d : Draft) (a : Assembler) : Prop where
  isOpen : a.isOpen = true
  notEnded : a.ended = false
  current : a.current = some d.target
  baseline : a.baseline = d.margin
  contentStart : a.contentStart = (lead m es d).length
  held : a.buffers.get d.target = lead m es d ++ Xml.cdataSafe d.text
  others : ∀ s ≠ d.target, a.buffers.get s = shelf m es s

structure Finished (m : Markup) (es : List Element) (a : Assembler) : Prop where
  closed : a.isOpen = false
  buffers : ∀ s, a.buffers.get s = shelf m es s

theorem shelf_append_self (m : Markup) (es : List Element) (e : Element) :
    shelf m (es ++ [e]) e.target = shelf m es e.target ++ e.render m := by
  simp [shelf, List.filter_append]

theorem shelf_append_of_ne (m : Markup) (es : List Element) {e : Element} {s : Section}
    (other : s ≠ e.target) :
    shelf m (es ++ [e]) s = shelf m es s := by
  simp [shelf, List.filter_append, Ne.symm other]

theorem append_of_current {s : Section} (current : a.current = some s) (piece : Text) :
    a.append piece = { a with buffers := a.buffers.append s (Xml.cdataSafe piece) } := by
  simp only [append, current]

theorem close_of_current {s : Section} (isOpen : a.isOpen = true) (current : a.current = some s) :
    a.close m = { a with
      buffers := (a.buffers.trimEnd s).append s (Xml.cdataEnd ++ m.endTag s.name)
      isOpen := false } := by
  simp only [close, isOpen, current]

theorem fresh_finished (m : Markup) : Finished m [] {} := ⟨rfl, Buffers.get_empty⟩

theorem begin_spec (h : Finished m es a) (running : a.ended = false) (s : Section)
    (name : Option Text) : Drafting m es ⟨s, name, [], a.baseline⟩ (a.begin m s name) where
  isOpen := rfl
  notEnded := running
  current := rfl
  baseline := rfl
  contentStart := by
    simp only [begin, Buffers.size_eq_length, Buffers.get_append_self, h.buffers s]
    rfl
  held := by
    simp only [begin, Buffers.get_append_self, h.buffers s]
    simp [lead]
  others t other := by
    simp only [begin, Buffers.get_append_of_ne _ other]
    exact h.buffers t

/-- Trimming the buffer trims the text of the draft. -/
theorem trimEnd_lead (text : Text) :
    (lead m es d ++ Xml.cdataSafe text).trimEnd = lead m es d ++ Xml.cdataSafe text.trimEnd := by
  rw [lead, ← List.append_assoc (shelf m es d.target), Xml.trimEnd_behind_start]

theorem close_spec (h : Drafting m es d a) : Finished m (es ++ [d.finish]) (a.close m) := by
  rw [close_of_current h.isOpen h.current]
  refine ⟨rfl, fun s => ?_⟩
  by_cases same : s = d.target
  · subst same
    have self := shelf_append_self m es d.finish
    simp only [Buffers.get_append_self, Buffers.get_trimEnd_self, h.held, trimEnd_lead]
    simpa [lead, Draft.finish, Element.render] using self.symm
  · have other : shelf m (es ++ [d.finish]) s = shelf m es s := shelf_append_of_ne m es same
    rw [other, Buffers.get_append_of_ne _ same, Buffers.get_trimEnd_of_ne _ same]
    exact h.others s same

theorem append_spec {piece : Text} (h : Drafting m es d a)
    (whole : Xml.cdataSafe (d.text ++ piece) = Xml.cdataSafe d.text ++ Xml.cdataSafe piece) :
    Drafting m es { d with text := d.text ++ piece } (a.append piece) := by
  rw [append_of_current h.current]
  exact { h with
    held := by rw [Buffers.get_append_self, h.held, whole, List.append_assoc]; rfl
    others := fun s other => (Buffers.get_append_of_ne _ other _).trans (h.others s other) }

theorem alignTo_spec (h : Drafting m es d a) (text : Text) :
    Drafting m es { d with margin := text.leadingBlanks } (a.alignTo text) :=
  { h with baseline := rfl }

theorem hasContent_iff (h : Drafting m es d a) : a.hasContent = true ↔ d.text ≠ [] := by
  have size := congrArg List.length h.held
  rw [← Buffers.size_eq_length, List.length_append] at size
  simp only [hasContent, h.current, h.contentStart, size, decide_eq_true_eq]
  rw [ne_eq, ← Xml.cdataSafe_eq_nil_iff, ← List.length_eq_zero_iff]
  omega

/-- A new line is started exactly as a draft does it. -/
theorem breakLine_spec (h : Drafting m es d a) :
    Drafting m es { d with text := if d.text = [] then [] else d.text ++ ['\n'] } a.breakLine := by
  by_cases empty : d.text = []
  · have bare : a.hasContent = false := by
      rw [Bool.eq_false_iff, ne_eq, hasContent_iff h]
      exact not_not.mpr empty
    have same : { d with text := if d.text = [] then [] else d.text ++ ['\n'] } = d := by
      rw [if_pos empty, ← empty]
    rw [same, breakLine, bare]
    exact h
  · have filled : a.hasContent = true := (hasContent_iff h).mpr empty
    rw [breakLine, filled, if_neg empty]
    exact append_spec h (Xml.cdataSafe_append_cons (by decide) d.text [])

/-- The text of a line joins the draft behind a line break or at the very start. -/
theorem appendAligned_spec {text line : Text} {margin : Nat}
    (h : Drafting m es { d with text := if text = [] then [] else text ++ ['\n'], margin } a) :
    Drafting m es ({ d with text }.addLine margin line) (a.appendAligned line) := by
  have aligned := h.baseline
  dsimp only at aligned
  rw [appendAligned, aligned]
  refine append_spec h ?_
  dsimp only
  split
  · rfl
  · have breaks := Xml.cdataSafe_append_cons (c := '\n') (by decide) text
    have first := breaks []
    rw [Xml.cdataSafe_nil] at first
    rw [first, List.append_assoc, List.singleton_append, breaks, List.append_assoc]
    rfl

theorem absorb_spec {line : Line.Content} (h : Drafting m es d a)
    (untagged : ∀ s name text, line ≠ .tag s name text) :
    Drafting m es (d.add line) (a.absorb line) := by
  cases line with
  | tag s name text => exact absurd rfl (untagged s name text)
  | begins text => exact appendAligned_spec (alignTo_spec (breakLine_spec h) text)
  | continuation text =>
    have broken := breakLine_spec h
    rw [absorb, Draft.add]
    by_cases empty : d.text = []
    · have bare : a.hasContent = false := by
        rw [Bool.eq_false_iff, ne_eq, hasContent_iff h]
        exact not_not.mpr empty
      rw [breakLine, bare] at broken
      rw [bare, if_pos empty]
      exact appendAligned_spec (alignTo_spec broken text)
    · have filled : a.hasContent = true := (hasContent_iff h).mpr empty
      rw [breakLine, filled] at broken
      rw [filled, if_neg empty]
      exact appendAligned_spec broken
  | plain text =>
    have broken := breakLine_spec h
    exact appendAligned_spec broken
  | blank => exact h

/-- A tag line opens its element on top of what is finished. -/
theorem tagged_spec (h : Finished m es a) (running : a.ended = false) (s : Section)
    (name : Option Text) (text : Text) :
    Drafting m es (Draft.tagged s name text) ((a.begin m s name).absorb (.tag s name text)) :=
  append_spec (alignTo_spec (begin_spec h running s name) text) rfl

/-- The part of `process` before the end marker is looked at. -/
def receive (m : Markup) (a : Assembler) (line : Line.Content) : Assembler :=
  (match a.opening? line with
    | some (s, name) => (a.close m).begin m s name
    | none => a).absorb line

theorem process_eq (m : Markup) (a : Assembler) (raw : Text) : a.process m raw =
    if (Line.read raw).endsBlock then
      { (a.receive m (Line.readContent raw)).close m with ended := true }
    else a.receive m (Line.readContent raw) := rfl

/-- Whatever line comes next, the elements still to be read from the draft stay the same. -/
theorem receive_spec (h : Drafting m es d a) (line : Line.Content) :
    ∃ es' d', Drafting m es' d' (a.receive m line) ∧
      ∀ rest, es' ++ d'.elements rest = es ++ d.elements (line :: rest) := by
  cases line with
  | tag s name text =>
    have running : (a.close m).ended = false := by
      rw [close_of_current h.isOpen h.current]
      exact h.notEnded
    exact ⟨_, _, tagged_spec (close_spec h) running s name text, fun rest => by simp [Draft.elements]⟩
  | begins | continuation | plain | blank =>
    have stays : ∀ line, a.opening? line = none → a.receive m line = a.absorb line := by
      intro line stays
      rw [receive, stays]
    rw [stays _ (by simp only [opening?, h.isOpen, if_true])]
    exact ⟨es, _, absorb_spec h (by simp), fun rest => rfl⟩

/-- The first line opens an element in any case. -/
theorem receive_first (m : Markup) (line : Line.Content) :
    ∃ d, Drafting m [] d (({} : Assembler).receive m line) ∧
      ∀ rest, d.elements rest = Element.ofLines (line :: rest) := by
  have opened := begin_spec (fresh_finished m) rfl .description none
  cases line with
  | tag s name text => exact ⟨_, tagged_spec (fresh_finished m) rfl s name text, fun rest => rfl⟩
  | begins | continuation | plain | blank => exact ⟨_, absorb_spec opened (by simp), fun rest => rfl⟩

theorem blockLines_cons (raw : Text) (raws : List Text) : blockLines (raw :: raws) =
    raw :: if (Line.read raw).endsBlock then [] else blockLines raws := by
  rw [blockLines]
  split <;> rfl

private theorem feedAll_cons_spec {raw : Text} {raws : List Text} (running : a.ended = false)
    (h : Drafting m es d (a.receive m (Line.readContent raw)))
    (later : Finished m (es ++ d.elements ((blockLines raws).map Line.readContent))
      (((a.receive m (Line.readContent raw)).feedAll m raws).close m)) :
    Finished m
      (es ++ d.elements ((if (Line.read raw).endsBlock then [] else blockLines raws).map
        Line.readContent))
      ((a.feedAll m (raw :: raws)).close m) := by
  rw [feedAll_cons, feed, running, if_neg Bool.false_ne_true, process_eq]
  split
  · have closed := close_spec h
    rw [feedAll_of_ended rfl, close_of_not_isOpen]
    · exact ⟨closed.closed, closed.buffers⟩
    · exact closed.closed
  · exact later

/-- The lines of a block, taken one by one, lead to the elements that they define. -/
theorem feedAll_spec (h : Drafting m es d a) (raws : List Text) :
    Finished m (es ++ d.elements ((blockLines raws).map Line.readContent))
      ((a.feedAll m raws).close m) := by
  induction raws generalizing es d a with
  | nil => exact close_spec h
  | cons raw raws ih =>
    obtain ⟨es', d', drafting, same⟩ := receive_spec h (Line.readContent raw)
    rw [blockLines_cons, List.map_cons, ← same]
    exact feedAll_cons_spec h.notEnded drafting (ih drafting)

theorem feedAll_fresh_spec (m : Markup) (raws : List Text) :
    Finished m (Element.ofLines ((blockLines raws).map Line.readContent))
      ((({} : Assembler).feedAll m raws).close m) := by
  cases raws with
  | nil => exact fresh_finished m
  | cons raw raws =>
    obtain ⟨d, drafting, same⟩ := receive_first m (Line.readContent raw)
    rw [blockLines_cons, List.map_cons, ← same]
    exact feedAll_cons_spec rfl drafting (feedAll_spec drafting raws)

theorem document_spec (h : Finished m es a) : a.document m = documentOf m es := by
  have flat : a.buffers.flatten = (Element.bySection es).flatMap (Element.render m) := by
    rw [Buffers.flatten, Element.bySection, List.flatMap_assoc]
    exact List.flatMap_congr fun s _ => h.buffers s
  rw [document, documentOf, flat]

end DocComment.Assembler

namespace DocComment

theorem render_eq_documentOf (m : Markup) (comment : Text) :
    render m comment = documentOf m (elementsOf comment) :=
  Assembler.document_spec (Assembler.feedAll_fresh_spec m comment.lines)

/-- The buffers of a fresh session hold what the lines define, element by element: its document is the
one that is read off the lines without any buffer. -/
theorem fresh_session_renders_document (m : Markup) (comment : Text) :
    ((({ markup := m } : Session).set comment).render).1 = .ok (documentOf m (elementsOf comment)) := by
  rw [Session.render_of_fresh, render_eq_documentOf]

end DocComment
