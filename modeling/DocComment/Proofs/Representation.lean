import DocComment.Proofs.Assembly

/-! What an assembler keeps while the lines of a block come in. Before the first line it is empty; then one
element is open, until a line ends the block. The buffer of the open element's section holds finished
elements, one start tag and the start of a CDATA section, up to `contentStart`, and behind that the escaped
text of the element. All other buffers hold finished elements. Nothing is asked of the markup. -/
namespace DocComment.Assembler

variable {m : Markup} {es : List Element} {d : Draft} {a : Assembler} {taken : List Text}

/-- How an assembler stands for finished elements and an open one. -/
structure HoldsOpen (m : Markup) (es : List Element) (d : Draft) (a : Assembler) : Prop where
  current : a.current = some d.target
  bounded : a.contentStart ≤ a.buffers.size d.target
  before : (a.buffers.get d.target).take a.contentStart =
    shelf m es d.target ++ (m.startTag d.target.name d.name ++ Xml.cdataStart)
  behind : (a.buffers.get d.target).drop a.contentStart = Xml.cdataSafe d.text
  hasContent : a.hasContent = true ↔ d.text ≠ []
  others : ∀ s ≠ d.target, a.buffers.get s = shelf m es s
  /-- Trimming the buffer takes nothing from in front of the text. -/
  untrimmed : a.contentStart ≤ (a.buffers.trimEnd d.target).size d.target ∧
    ((a.buffers.trimEnd d.target).get d.target).take a.contentStart =
      (a.buffers.get d.target).take a.contentStart

/-- How an assembler stands for the lines it has taken. -/
structure Represents (m : Markup) (taken : List Text) (a : Assembler) : Prop where
  fresh : taken = [] → a.isOpen = false ∧ a.ended = false
  openOrEnded : taken ≠ [] → a.isOpen = !a.ended
  opened : a.isOpen = true →
    ∃ es d, es ++ [d.finish] = Element.ofLines (taken.map Line.readContent) ∧ HoldsOpen m es d a
  closed : a.isOpen = false →
    ∀ s, a.buffers.get s = shelf m (Element.ofLines (taken.map Line.readContent)) s
  closeAgain : (a.close m).close m = a.close m

theorem holdsOpen_of_drafting (h : Drafting m es d a) : HoldsOpen m es d a where
  current := h.current
  bounded := by
    rw [Buffers.size_eq_length, h.held, h.contentStart, List.length_append]
    exact Nat.le_add_right _ _
  before := by
    rw [h.held, h.contentStart, List.take_left]
    rfl
  behind := by rw [h.held, h.contentStart, List.drop_left]
  hasContent := hasContent_iff h
  others := h.others
  untrimmed := by
    have trimmed : (a.buffers.trimEnd d.target).get d.target = lead m es d ++ Xml.cdataSafe d.text.trimEnd := by
      rw [Buffers.get_trimEnd_self, h.held, trimEnd_lead]
    refine ⟨?_, ?_⟩
    · rw [Buffers.size_eq_length, trimmed, h.contentStart, List.length_append]
      exact Nat.le_add_right _ _
    · rw [trimmed, h.held, h.contentStart, List.take_left, List.take_left]

theorem close_close (m : Markup) (a : Assembler) : (a.close m).close m = a.close m := by
  cases running : a.isOpen with
  | false => rw [close_of_not_isOpen running, close_of_not_isOpen running]
  | true =>
    cases held : a.current with
    | none =>
      have same : a.close m = a := by simp only [close, running, held]
      rw [same, same]
    | some s =>
      have closed : (a.close m).isOpen = false := by rw [close_of_current running held]
      exact close_of_not_isOpen closed

/-- How far an assembler has come with a block. -/
inductive Stage (m : Markup) (taken : List Text) (a : Assembler) : Prop
  | before : taken = [] → a = {} → Stage m taken a
  | within (es : List Element) (d : Draft) : taken ≠ [] → Drafting m es d a →
      (∀ rest, es ++ d.elements rest = Element.ofLines (taken.map Line.readContent ++ rest)) → Stage m taken a
  | behind : taken ≠ [] → a.ended = true → Finished m (Element.ofLines (taken.map Line.readContent)) a →
      Stage m taken a

/-- Once a line is received, an element is open; the lines to come belong to it or open others. -/
theorem Stage.receive (h : Stage m taken a) (running : a.ended = false) (raw : Text) :
    ∃ es d, Drafting m es d (a.receive m (Line.readContent raw)) ∧
      ∀ rest, es ++ d.elements rest = Element.ofLines ((taken ++ [raw]).map Line.readContent ++ rest) := by
  cases h with
  | before untouched fresh =>
    subst untouched
    subst fresh
    obtain ⟨d, drafting, same⟩ := receive_first m (Line.readContent raw)
    exact ⟨[], d, drafting, same⟩
  | within es d begun drafting same =>
    obtain ⟨es', d', drafting', same'⟩ := receive_spec drafting (Line.readContent raw)
    refine ⟨es', d', drafting', fun rest => ?_⟩
    rw [same', same, List.map_append, List.append_assoc]
    rfl
  | behind begun ended finished => exact absurd (running.symm.trans ended) Bool.false_ne_true

theorem Stage.process (h : Stage m taken a) (running : a.ended = false) (raw : Text) :
    Stage m (taken ++ [raw]) (a.process m raw) ∧ (a.process m raw).ended = (Line.read raw).endsBlock := by
  obtain ⟨es, d, drafting, same⟩ := h.receive running raw
  have begun : taken ++ [raw] ≠ [] := List.concat_ne_nil raw taken
  rw [process_eq]
  cases ends : (Line.read raw).endsBlock with
  | false => exact ⟨.within es d begun drafting same, drafting.notEnded⟩
  | true =>
    have finished := close_spec drafting
    have all : es ++ [d.finish] = Element.ofLines ((taken ++ [raw]).map Line.readContent) := by
      rw [← List.append_nil (List.map _ _)]
      exact same []
    rw [all] at finished
    exact ⟨.behind begun rfl ⟨finished.closed, finished.buffers⟩, rfl⟩

theorem Stage.feedAll (h : Stage m taken a) (running : a.ended = false) (raws : List Text) :
    Stage m (taken ++ blockLines raws) (a.feedAll m raws) := by
  induction raws generalizing taken a with
  | nil => rwa [blockLines, List.append_nil]
  | cons raw raws ih =>
    obtain ⟨stage, ended⟩ := h.process running raw
    rw [feedAll_cons, feed, if_neg (Bool.eq_false_iff.mp running), blockLines_cons]
    cases ends : (Line.read raw).endsBlock with
    | true =>
      rw [if_pos rfl, feedAll_of_ended (ended.trans ends)]
      exact stage
    | false =>
      have later := ih stage (ended.trans ends)
      rw [List.append_assoc] at later
      rwa [if_neg Bool.false_ne_true]

theorem Stage.represents (h : Stage m taken a) : Represents m taken a := by
  cases h with
  | before untouched fresh =>
    subst untouched
    subst fresh
    exact ⟨fun _ => ⟨rfl, rfl⟩, absurd rfl, nofun, fun _ => Buffers.get_empty, close_close m _⟩
  | within es d begun drafting same =>
    have all := same []
    rw [List.append_nil] at all
    refine ⟨fun untouched => absurd untouched begun, fun _ => ?_, fun _ => ?_, ?_, close_close m a⟩
    · rw [drafting.isOpen, drafting.notEnded]
      rfl
    · exact ⟨es, d, all, holdsOpen_of_drafting drafting⟩
    · intro closed
      exact absurd (closed.symm.trans drafting.isOpen) Bool.false_ne_true
  | behind begun ended finished =>
    refine ⟨fun untouched => absurd untouched begun, fun _ => ?_, fun isOpen => ?_, fun _ => finished.buffers,
      close_close m a⟩
    · rw [finished.closed, ended]
      rfl
    · exact absurd (finished.closed.symm.trans isOpen) Bool.false_ne_true

/-- Whatever the markup and however many lines have come in, a fresh assembler stands for the lines of the
block it has taken. -/
theorem assembler_represents_lines (m : Markup) (raws : List Text) :
    Represents m (blockLines raws) (({} : Assembler).feedAll m raws) := by
  have fresh : Stage m [] {} := .before rfl rfl
  exact (fresh.feedAll rfl raws).represents

end DocComment.Assembler
