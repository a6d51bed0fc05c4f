import DocComment.Proofs.BlockParts
import DocComment.Proofs.DocumentReading
import DocComment.Proofs.QuotedText

/-! What a run reports. From the first line of a block to its last exactly one element is open, so
the events can be told from the lines alone: each line is reported once, a new element right behind
the line that opens it, and the end of the lines only where no line ends the block. The elements that
are reported are those of the document. All of this is said of the records that the log gets. -/
namespace DocComment

namespace Line.Content

/-- The element that a line opens: a tag line its own, the first line of a block a description unless
it is a tag line, and any other line none. -/
def opens (first : Bool) : Content → Option (Section × Option Text)
  | .tag s name _ => some (s, name)
  | _ => if first then some (.description, none) else none

theorem opens_tagged {line : Content} {s : Section} (tagged : line.target? = some s) (first : Bool) :
    line.opens first = some (s, line.name?) := by
  cases line with
  | tag t name text =>
    cases tagged
    rfl
  | begins | continuation | plain | blank => cases tagged

theorem opens_untagged {line : Content} (untagged : line.target? = none) (first : Bool) :
    line.opens first = if first then some (.description, none) else none := by
  cases line with
  | tag s name text => cases untagged
  | begins | continuation | plain | blank => rfl

end Line.Content

namespace LogRecord

/-- A record in the name of what renders comments. -/
def ofRendering (level : Level) (message : String) (fields : List (String × Text)) : LogRecord where
  level
  component := "xqdoc::parser::comment".toList
  message := message.toList
  fields := fields.map fun (name, value) => (name.toList, value)

def classified (raw : Text) : LogRecord :=
  ofRendering .trace "classified" [("classified", Event.lineLabel (Line.read raw))]

/-- An element was begun. Its name, if it has one, is quoted. -/
def begun (s : Section) (name : Option Text) : LogRecord :=
  ofRendering .debug "begin section" [("section", s.name),
    ("tag", name.elim "None".toList fun name => "Some(".toList ++ name.quoted ++ ")".toList)]

def ignored (raw : Text) : LogRecord := ofRendering .trace "ignoring text after end of comment" [("line", raw)]

def unterminated (s : Section) : LogRecord :=
  ofRendering .warn "comment block has no end marker; closing open section" [("section", s.name)]

/-- What is recorded of a line of a block: that it was read, and the element it opens. -/
def ofLine (first : Bool) (raw : Text) : List LogRecord :=
  classified raw :: ((Line.readContent raw).opens first).toList.map fun (s, name) => begun s name

def ofBlock : List Text → List LogRecord
  | [] => []
  | raw :: raws => ofLine true raw ++ raws.flatMap (ofLine false)

def beginnings (log : List LogRecord) : List LogRecord := log.filter fun r => r.message = "begin section".toList

def warnings (log : List LogRecord) : List LogRecord := log.filter fun r => r.level = .warn

/-- A record names one section and one name only. -/
theorem begun_inj {s s' : Section} {name name' : Option Text} (same : begun s name = begun s' name') :
    s = s' ∧ name = name' := by
  have fields := congrArg LogRecord.fields same
  simp only [begun, ofRendering, List.map_cons, List.map_nil, List.cons.injEq, Prod.mk.injEq, true_and,
    and_true] at fields
  obtain ⟨sections, tags⟩ := fields
  refine ⟨Section.name_injective sections, ?_⟩
  cases name with
  | none =>
    cases name' with
    | none => rfl
    | some name' => cases tags
  | some name =>
    cases name' with
    | none => cases tags
    | some name' =>
      have quoted := List.append_cancel_left (List.append_cancel_right tags)
      rw [Text.quoted_injective quoted]

end LogRecord

namespace Event

def opened? : Event → Option (Section × Option Text)
  | .opened s name => some (s, name)
  | _ => none

/-- What is reported of a line of a block: that it was read, and the element it opens. -/
def ofLine (first : Bool) (raw : Text) : List Event :=
  .classified (Line.read raw) ::
    ((Line.readContent raw).opens first).toList.map fun (s, name) => .opened s name

def ofBlock : List Text → List Event
  | [] => []
  | raw :: raws => ofLine true raw ++ raws.flatMap (ofLine false)

theorem record_ofLine (first : Bool) (raw : Text) : (ofLine first raw).map record = LogRecord.ofLine first raw := by
  rw [ofLine, LogRecord.ofLine]
  cases (Line.readContent raw).opens first with
  | none => rfl
  | some p =>
    obtain ⟨s, name⟩ := p
    cases name <;> rfl

theorem record_ofBlock (raws : List Text) : (ofBlock raws).map record = LogRecord.ofBlock raws := by
  cases raws with
  | nil => rfl
  | cons raw raws =>
    rw [ofBlock, LogRecord.ofBlock, List.map_append, record_ofLine, List.map_flatMap]
    simp only [record_ofLine]

theorem warnings_record (events : List Event) :
    LogRecord.warnings (events.map record) = (events.filter fun e => e.level = .warn).map record := by
  rw [LogRecord.warnings, List.filter_map]
  rfl

/-- Only elements that were begun are recorded under their message. -/
theorem beginnings_record (events : List Event) :
    LogRecord.beginnings (events.map record) = (events.filterMap opened?).map fun p => .begun p.1 p.2 := by
  induction events with
  | nil => rfl
  | cons e events ih =>
    rw [LogRecord.beginnings] at ih ⊢
    cases e with
    | opened s name =>
      rw [List.map_cons, List.filter_cons_of_pos (by rfl), ih]
      cases name <;> rfl
    | classified | ignored | unterminated =>
      rw [List.map_cons, List.filter_cons_of_neg Bool.false_ne_true, ih]
      rfl

theorem opened?_ofLine (first : Bool) (raw : Text) :
    (ofLine first raw).filterMap opened? = ((Line.readContent raw).opens first).toList := by
  rw [ofLine]
  cases (Line.readContent raw).opens first <;> rfl

theorem opened?_lines (raws : List Text) : (raws.flatMap (ofLine false)).filterMap opened? =
    (raws.map Line.readContent).filterMap (Line.Content.opens false) := by
  induction raws with
  | nil => rfl
  | cons raw raws ih =>
    rw [List.flatMap_cons, List.filterMap_append, opened?_ofLine, ih, List.map_cons,
      List.filterMap_cons]
    cases (Line.readContent raw).opens false <;> rfl

/-- The only line that opens a description is the first, unless it is a tag line. -/
theorem descriptions_ofBlock (raws : List Text) :
    ((ofBlock raws).filterMap opened?).filter (fun p => p.1 = .description) =
      (raws.head?.filter fun raw => (Line.readContent raw).target? = none).toList.map
        fun _ => (.description, none) := by
  cases raws with
  | nil => rfl
  | cons raw raws =>
    have rest : ((raws.flatMap (ofLine false)).filterMap opened?).filter
        (fun p => p.1 = .description) = [] := by
      rw [opened?_lines, List.filter_eq_nil_iff, List.filterMap_map]
      rintro p inside same
      obtain ⟨r, _, opens⟩ := List.mem_filterMap.mp inside
      cases target : (Line.readContent r).target? with
      | none => rw [Function.comp, Line.Content.opens_untagged target] at opens; cases opens
      | some s =>
        rw [Function.comp, Line.Content.opens_tagged target] at opens
        cases opens
        obtain rfl : s = .description := of_decide_eq_true same
        exact Line.target?_ne_description r target
    rw [ofBlock, List.filterMap_append, List.filter_append, rest, opened?_ofLine, List.append_nil,
      List.head?_cons]
    cases target : (Line.readContent raw).target? with
    | none => simp [Line.Content.opens_untagged target, Option.filter, target]
    | some s =>
      have other : s ≠ .description := by
        rintro rfl
        exact Line.target?_ne_description raw target
      simp [Line.Content.opens_tagged target, Option.filter, target, other]

theorem level_ofLine (first : Bool) (raw : Text) : ∀ e ∈ ofLine first raw, e.level ≠ .warn := by
  rw [ofLine]
  cases (Line.readContent raw).opens first with
  | none => exact List.forall_mem_cons.mpr ⟨nofun, nofun⟩
  | some p => exact List.forall_mem_cons.mpr ⟨nofun, List.forall_mem_cons.mpr ⟨nofun, nofun⟩⟩

theorem level_ofBlock (raws : List Text) : ∀ e ∈ ofBlock raws, e.level ≠ .warn := by
  cases raws with
  | nil => exact nofun
  | cons raw raws =>
    refine List.forall_mem_append.mpr ⟨level_ofLine true raw, fun e member => ?_⟩
    obtain ⟨r, _, inside⟩ := List.mem_flatMap.mp member
    exact level_ofLine false r e inside

end Event

/-- How an element is reported when it is opened. -/
def Element.heading (e : Element) : Section × Option Text := (e.target, e.name)

theorem Draft.heading_elements (d : Draft) (lines : List Line.Content) :
    (d.elements lines).map Element.heading =
      (d.target, d.name) :: lines.filterMap (Line.Content.opens false) := by
  induction lines generalizing d with
  | nil => rfl
  | cons line lines ih =>
    cases line with
    | tag s name text => exact congrArg ((d.target, d.name) :: ·) (ih (tagged s name text))
    | begins | continuation | plain | blank => exact ih _

/-- The elements of a block are those that its lines open, in the order of the lines. -/
theorem Element.heading_ofLines (raws : List Text) :
    (ofLines (raws.map Line.readContent)).map heading =
      (Event.ofBlock raws).filterMap Event.opened? := by
  cases raws with
  | nil => rfl
  | cons raw raws =>
    rw [Event.ofBlock, List.filterMap_append, Event.opened?_ofLine, Event.opened?_lines, List.map_cons]
    cases Line.readContent raw with
    | tag s name text => exact (Draft.tagged s name text).heading_elements _
    | begins | continuation | plain | blank => exact Draft.heading_elements _ _

/-- The lines behind a block. -/
def linesBehind (raws : List Text) : List Text := raws.drop (blockLines raws).length

/-- The warning belongs to a block that has lines but no end, and names the section of the last element. -/
structure Warns (raws : List Text) (last : Option Section) (warning : List Event) : Prop where
  unended : (∀ raw ∈ raws, ¬ endMarker <:+: raw) → warning = last.toList.map .unterminated
  ended : ∀ raw ∈ raws, endMarker <:+: raw → warning = []

theorem Warns.cases {raws : List Text} {last : Option Section} {warning : List Event}
    (h : Warns raws last warning) : warning = [] ∨ ∃ s, warning = [.unterminated s] := by
  by_cases ends : ∃ raw ∈ raws, endMarker <:+: raw
  · obtain ⟨raw, member, marked⟩ := ends
    exact .inl (h.ended raw member marked)
  · have same := h.unended fun raw member marked => ends ⟨raw, member, marked⟩
    cases last with
    | none => exact .inl same
    | some s => exact .inr ⟨s, same⟩

namespace Assembler

variable {m : Markup} {es : List Element} {d : Draft} {a : Assembler} {raw : Text} {raws : List Text}

theorem events_of_ended (ended : a.ended = true) (closed : a.isOpen = false) (raws : List Text) :
    a.events m raws = raws.map .ignored := by
  induction raws with
  | nil => simp [events, closed]
  | cons raw raws ih => simp [events, lineEvents, feed, ended, ih]

/-- The events of a run over some lines: `first` is what they open, and `last` the section that is open
when they run out. -/
structure Accounts (a : Assembler) (m : Markup) (first : List Event) (raws : List Text)
    (last : Option Section) : Prop where
  holds : ∃ warning, a.events m raws = first ++ (linesBehind raws).map .ignored ++ warning ∧
    Warns raws last warning

/-- What the next line adds to the account, whether it ends the block or not. -/
theorem accounts_cons {first : Bool} {last : Option Section}
    (running : a.ended = false) (opening : ∀ line, a.opening? line = line.opens first)
    (h : Drafting m es d (a.receive m (Line.readContent raw)))
    (later : Accounts (a.receive m (Line.readContent raw)) m
      ((blockLines raws).flatMap (Event.ofLine false)) raws last) :
    Accounts a m (Event.ofLine first raw ++
      (if (Line.read raw).endsBlock then [] else blockLines raws).flatMap (Event.ofLine false))
      (raw :: raws) last := by
  have report : a.lineEvents raw = Event.ofLine first raw := by
    simp only [lineEvents, running, Bool.false_eq_true, if_false, opening]
    rfl
  rw [← report]
  by_cases ends : (Line.read raw).endsBlock = true
  · have closed := (close_spec h).closed
    have fed : ∃ b, a.feed m raw = b ∧ b.ended = true ∧ b.isOpen = false := by
      rw [feed, running, if_neg Bool.false_ne_true, process_eq, if_pos ends]
      exact ⟨_, rfl, rfl, closed⟩
    obtain ⟨b, fed, ended, notOpen⟩ := fed
    have marked := (Line.endsBlock_iff raw).mp ends
    have block := blockLines_ending marked raws
    refine ⟨[], ?_, ?_, fun _ _ _ => rfl⟩
    · rw [events, fed, events_of_ended ended notOpen, linesBehind, block, if_pos ends,
        List.flatMap_nil, List.append_nil, List.append_nil]
      rfl
    · intro runsOn
      exact absurd marked (runsOn raw List.mem_cons_self)
  · have fed : a.feed m raw = a.receive m (Line.readContent raw) := by
      rw [feed, running, if_neg Bool.false_ne_true, process_eq, if_neg ends]
    have behind : linesBehind (raw :: raws) = linesBehind raws := by
      rw [linesBehind, blockLines, if_neg ends]
      rfl
    obtain ⟨warning, same, warns⟩ := later.holds
    refine ⟨warning, ?_, fun runsOn => ?_, ?_⟩
    · rw [events, fed, same, if_neg ends, behind]
      simp only [List.append_assoc]
    · exact warns.unended fun r member => runsOn r (List.mem_cons_of_mem raw member)
    · refine List.forall_mem_cons.mpr ⟨fun marked => ?_, warns.ended⟩
      exact absurd ((Line.endsBlock_iff raw).mpr marked) ends

/-- With an element open, only tag lines open another, and the last one is open at the end. -/
theorem accounts_drafting (h : Drafting m es d a) (raws : List Text) :
    Accounts a m ((blockLines raws).flatMap (Event.ofLine false)) raws
      ((es ++ d.elements (raws.map Line.readContent)).getLast?.map Element.target) := by
  induction raws generalizing es d a with
  | nil =>
    refine ⟨[.unterminated d.target], ?_, fun _ => ?_, nofun⟩
    · rw [events, h.isOpen, h.current]
      rfl
    · simp [Draft.elements, Draft.finish]
  | cons raw raws ih =>
    obtain ⟨es', d', drafting, same⟩ := receive_spec h (Line.readContent raw)
    have opening : ∀ line, a.opening? line = line.opens false := by
      intro line
      cases line with
      | tag => rfl
      | begins | continuation | plain | blank => simp [opening?, h.isOpen, Line.Content.opens]
    have step := accounts_cons h.notEnded opening drafting (ih drafting)
    rw [same] at step
    rw [blockLines_cons, List.flatMap_cons]
    exact step

theorem accounts_fresh (m : Markup) (raws : List Text) :
    Accounts {} m (Event.ofBlock (blockLines raws)) raws
      ((Element.ofLines (raws.map Line.readContent)).getLast?.map Element.target) := by
  cases raws with
  | nil => exact ⟨[], rfl, fun _ => rfl, nofun⟩
  | cons raw raws =>
    obtain ⟨d, drafting, same⟩ := receive_first m (Line.readContent raw)
    have opening : ∀ line, ({} : Assembler).opening? line = line.opens true := by
      intro line
      cases line <;> rfl
    have step := accounts_cons rfl opening drafting (accounts_drafting drafting raws)
    rw [List.nil_append, same] at step
    rw [blockLines_cons, Event.ofBlock]
    exact step

end Assembler

theorem renderEvents_spec (m : Markup) (comment : Text) :
    ∃ warning, renderEvents m comment = Event.ofBlock (blockLines comment.lines) ++
        (linesBehind comment.lines).map .ignored ++ warning ∧
      Warns comment.lines
        ((Element.ofLines (comment.lines.map Line.readContent)).getLast?.map Element.target) warning :=
  (Assembler.accounts_fresh m comment.lines).holds

theorem opened?_renderEvents (m : Markup) (comment : Text) :
    (renderEvents m comment).filterMap Event.opened? = (elementsOf comment).map Element.heading := by
  obtain ⟨warning, same, warns⟩ := renderEvents_spec m comment
  have ignored : ∀ raws : List Text, (raws.map Event.ignored).filterMap Event.opened? = [] := by
    intro raws
    rw [List.filterMap_map]
    exact List.filterMap_eq_nil_iff.mpr fun raw _ => rfl
  have quiet : warning.filterMap Event.opened? = [] := by
    obtain rfl | ⟨s, rfl⟩ := warns.cases <;> rfl
  rw [same, List.filterMap_append, List.filterMap_append, ignored, quiet, List.append_nil,
    List.append_nil, elementsOf, Element.heading_ofLines]

/-- Everything but the warning is reported at a lower level. -/
theorem filter_warn_renderEvents {m : Markup} {comment : Text} {warning : List Event}
    (same : renderEvents m comment = Event.ofBlock (blockLines comment.lines) ++
      (linesBehind comment.lines).map .ignored ++ warning)
    (warned : warning = [] ∨ ∃ s, warning = [.unterminated s]) :
    ((renderEvents m comment).filter fun e => e.level = .warn) = warning := by
  have block : ((Event.ofBlock (blockLines comment.lines)).filter fun e => e.level = .warn) = [] :=
    List.filter_eq_nil_iff.mpr fun e member loud =>
      Event.level_ofBlock _ e member (of_decide_eq_true loud)
  have behind : ((linesBehind comment.lines).map Event.ignored).filter (fun e => e.level = .warn) = [] := by
    rw [List.filter_map]
    exact List.map_eq_nil_iff.mpr (List.filter_eq_nil_iff.mpr fun raw _ => nofun)
  rw [same, List.filter_append, List.filter_append, block, behind]
  obtain rfl | ⟨s, rfl⟩ := warned <;> rfl

theorem descriptions_elementsOf (comment : Text) :
    ((elementsOf comment).filter fun e => e.target = .description).map Element.heading =
      (comment.lines.head?.filter fun raw => (Line.readContent raw).target? = none).toList.map
        fun _ => (.description, none) := by
  have opened := Element.heading_ofLines (blockLines comment.lines)
  rw [← elementsOf] at opened
  have head : (blockLines comment.lines).head? = comment.lines.head? := by
    cases comment.lines with
    | nil => rfl
    | cons raw raws => rw [Assembler.blockLines_cons, List.head?_cons, List.head?_cons]
  have headings := List.filter_map (f := Element.heading) (l := elementsOf comment)
    (p := fun p => p.1 = .description)
  rw [opened, Event.descriptions_ofBlock, head] at headings
  exact headings.symm

theorem exists_description_iff (comment : Text) : (∃ e ∈ elementsOf comment, e.target = .description) ↔
    ∃ raw ∈ comment.lines.head?, (Line.readContent raw).target? = none := by
  have descriptions := descriptions_elementsOf comment
  constructor
  · rintro ⟨e, member, same⟩
    have kept : e ∈ (elementsOf comment).filter fun e => e.target = .description :=
      List.mem_filter.mpr ⟨member, decide_eq_true same⟩
    have inside := List.mem_map_of_mem kept (f := Element.heading)
    rw [descriptions] at inside
    obtain ⟨raw, found, _⟩ := List.mem_map.mp inside
    obtain ⟨here, untagged⟩ := Option.mem_filter_iff.mp (Option.mem_toList.mp found)
    exact ⟨raw, here, of_decide_eq_true untagged⟩
  · rintro ⟨raw, here, untagged⟩
    have found : raw ∈ comment.lines.head?.filter fun raw => (Line.readContent raw).target? = none :=
      Option.mem_filter_iff.mpr ⟨here, decide_eq_true untagged⟩
    have inside := List.mem_map_of_mem (Option.mem_toList.mpr found)
      (f := fun _ => ((.description, none) : Section × Option Text))
    rw [← descriptions] at inside
    obtain ⟨e, kept, _⟩ := List.mem_map.mp inside
    obtain ⟨member, same⟩ := List.mem_filter.mp kept
    exact ⟨e, member, of_decide_eq_true same⟩

theorem length_descriptions_le (comment : Text) :
    ((elementsOf comment).filter fun e => e.target = .description).length ≤ 1 := by
  have size := congrArg List.length (descriptions_elementsOf comment)
  rw [List.length_map, List.length_map] at size
  rw [size]
  cases comment.lines.head?.filter fun raw => (Line.readContent raw).target? = none with
  | none => exact Nat.zero_le 1
  | some raw => exact Nat.le_refl 1

/-- What a log tells of rendering a comment with some lines; `es` are the elements of the document. -/
structure LogRecord.Account (raws : List Text) (es : List Element) (log : List LogRecord) : Prop where
  /-- Each line of the block as it is read, followed at once by the element that it opens, then the lines
  behind the block, and last what there is of warnings. -/
  inOrder : log = ofBlock (blockLines raws) ++ (linesBehind raws).map ignored ++ warnings log
  /-- When the lines run out there is one warning, with the section of the element that was begun last. -/
  unended : raws ≠ [] → (∀ raw ∈ raws, ¬ endMarker <:+: raw) → ∃ s name,
    (beginnings log).getLast? = some (begun s name) ∧ warnings log = [unterminated s]
  ended : raws = [] ∨ (∃ raw ∈ raws, endMarker <:+: raw) → warnings log = []
  /-- The elements of a section are begun one by one, in their order and by their names. -/
  sections : ∀ s : Section, (beginnings log).filter (fun r => ("section".toList, s.name) ∈ r.fields) =
    (es.filter fun e => e.target = s).map fun e => begun e.target e.name

theorem LogRecord.filter_begun (s : Section) (headings : List (Section × Option Text)) :
    (headings.map fun p => begun p.1 p.2).filter (fun r => ("section".toList, s.name) ∈ r.fields) =
      (headings.filter fun p => p.1 = s).map fun p => begun p.1 p.2 := by
  rw [List.filter_map]
  refine congrArg _ (List.filter_congr fun (t, name) _ => decide_eq_decide.mpr ?_)
  simp only [begun, ofRendering, List.map_cons, List.map_nil, List.mem_cons, Prod.mk.injEq, true_and,
    List.not_mem_nil, or_false]
  constructor
  · rintro (same | ⟨clash, _⟩)
    · exact (Section.name_injective same).symm
    · exact absurd clash (by decide)
  · rintro rfl
    exact .inl rfl

theorem record_account (m : Markup) (comment : Text) : LogRecord.Account comment.lines
    (Element.bySection (elementsOf comment)) ((renderEvents m comment).map Event.record) := by
  obtain ⟨warning, same, warns⟩ := renderEvents_spec m comment
  have warned : LogRecord.warnings ((renderEvents m comment).map Event.record) = warning.map Event.record := by
    rw [Event.warnings_record, filter_warn_renderEvents same warns.cases]
  have begun : LogRecord.beginnings ((renderEvents m comment).map Event.record) =
      ((elementsOf comment).map Element.heading).map fun p => .begun p.1 p.2 := by
    rw [Event.beginnings_record, opened?_renderEvents]
  refine ⟨?_, fun nonempty unended => ?_, ?_, fun s => ?_⟩
  · rw [warned, same, List.map_append, List.map_append, Event.record_ofBlock, List.map_map]
    rfl
  · have opened : elementsOf comment ≠ [] := by
      rw [elementsOf_of_unended unended]
      exact Element.ofLines_ne_nil (mt List.map_eq_nil_iff.mp nonempty)
    have last := List.getLast?_eq_getLast_of_ne_nil opened
    have ending := warns.unended unended
    rw [← elementsOf_of_unended unended, last] at ending
    rw [begun, warned, ending, List.getLast?_map, List.getLast?_map, last]
    exact ⟨_, _, rfl, rfl⟩
  · rintro (empty | ⟨raw, member, marked⟩)
    · have unended : ∀ raw ∈ comment.lines, ¬ endMarker <:+: raw := by
        rw [empty]
        exact nofun
      rw [warned, warns.unended unended, empty]
      rfl
    · rw [warned, warns.ended raw member marked]
      rfl
  · rw [begun, LogRecord.filter_begun, Element.bySection_eq_mergeSort, Element.filter_mergeSort, List.filter_map,
      List.map_map]
    rfl

/-- What a run reports is an exact account of it. Each line of the block is recorded as it is read,
followed by the element it opens; then each line behind the block; and last a warning, which names the
section opened last, if there are lines but none with the end marker. The elements recorded are, section
by section, those that are read from the document. -/
theorem renderEvents_account (comment : Text) :
    ∃ es, Xml.readDocument none (render (.xml none) comment) = some es ∧
      (∀ m, LogRecord.Account comment.lines es ((renderEvents m comment).map Event.record) ∧
        (({ markup := m } : Session).set comment).events = renderEvents m comment) ∧
      (∀ s s' name name', LogRecord.begun s name = .begun s' name' → s = s' ∧ name = name') ∧
      (es.filter fun e => e.target = .description).length ≤ 1 ∧
      ((∃ e ∈ es, e.target = .description) ↔
        ∃ raw ∈ comment.lines.head?, (Line.readContent raw).target? = none) := by
  refine ⟨_, Xml.readDocument_bySection Xml.named_none comment, fun m => ?_, ?_, ?_, ?_⟩
  · exact ⟨record_account m comment, Session.events_of_fresh m comment⟩
  · exact fun s s' name name' => LogRecord.begun_inj
  · rw [Element.bySection_eq_mergeSort, Element.filter_mergeSort]
    exact length_descriptions_le comment
  · simp only [Element.mem_bySection]
    exact exists_description_iff comment

example : (renderEvents (.xml none) "(:~ a :)\nb".toList).map (fun e => String.ofList e.record.line) =
    ["TRACE xqdoc::parser::comment: classified classified=Line \x7b kind: Begin(\" a \"), ends_block: true \x7d",
      "DEBUG xqdoc::parser::comment: begin section section=description tag=None",
      "TRACE xqdoc::parser::comment: ignoring text after end of comment line=b"] := by decide +kernel

end DocComment
