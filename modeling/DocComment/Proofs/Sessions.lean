import DocComment.Proofs.ByteLines
import DocComment.Run

/-! Sessions that are used again and again. All that a session lets through from earlier requests
is the comment it holds and whether it has rendered since it was last cleared: as long as it has
not, its assembler is fresh. -/
namespace DocComment

/-- What a session lets its user see of its past. -/
structure Slot where
  comment : Option Text := none
  rendered : Bool := false
deriving DecidableEq, Repr

namespace Slot

/-- A comment is rendered as by a session of its own, and only once. -/
def serve (m : Markup) (slot : Slot) : Request → Option (Except RenderError Text) × Slot
  | .set comment => (none, { slot with comment := some comment })
  | .clear => (none, {})
  | .render =>
    match slot.comment, slot.rendered with
    | none, _ => (some (.ok []), slot)
    | some _, true => (some (.error .alreadyRendered), slot)
    | some comment, false =>
      (some (({ markup := m } : Session).set comment).render.1, { slot with rendered := true })

def serveAll (m : Markup) (slot : Slot) : List Request → List (Option (Except RenderError Text))
  | [] => []
  | request :: requests =>
    let (answer, slot) := slot.serve m request
    answer :: slot.serveAll m requests

end Slot

namespace Session

/-- The state a session is in after some requests. -/
def reached (s : Session) (requests : List Request) : Session :=
  requests.foldl (fun s request => (s.serve request).2) s

structure Shows (m : Markup) (slot : Slot) (s : Session) : Prop where
  markup : s.markup = m
  comment : s.comment = slot.comment
  rendered : s.rendered = slot.rendered
  fresh : s.rendered = false → s.assembler = {}

variable {m : Markup} {slot : Slot} {s : Session}

theorem set_spec (h : Shows m slot s) (comment : Text) :
    Shows m { slot with comment := some comment } (s.set comment) where
  markup := h.markup
  comment := rfl
  rendered := h.rendered
  fresh unused := by
    have fresh := h.fresh unused
    simp only [set, fresh]

theorem render_spec (h : Shows m slot s) :
    some s.render.1 = (slot.serve m .render).1 ∧ Shows m (slot.serve m .render).2 s.render.2 := by
  obtain ⟨held, used⟩ := slot
  obtain ⟨markup, comment, rendered, assembler⟩ := s
  obtain ⟨rfl, rfl, rfl, fresh⟩ := h
  cases comment with
  | none => exact ⟨rfl, ⟨rfl, rfl, rfl, fresh⟩⟩
  | some comment =>
    cases rendered with
    | true => exact ⟨rfl, ⟨rfl, rfl, rfl, fresh⟩⟩
    | false =>
      obtain rfl : assembler = {} := fresh rfl
      have own := render_of_fresh markup comment
      rw [render_of_ready rfl rfl]
      exact ⟨congrArg some own.symm, ⟨rfl, rfl, rfl, nofun⟩⟩

theorem serve_spec (h : Shows m slot s) (request : Request) :
    (s.serve request).1 = (slot.serve m request).1 ∧
      Shows m (slot.serve m request).2 (s.serve request).2 := by
  cases request with
  | set comment => exact ⟨rfl, set_spec h comment⟩
  | render => exact render_spec h
  | clear => exact ⟨rfl, ⟨h.markup, rfl, rfl, fun _ => rfl⟩⟩

theorem serveAll_spec (h : Shows m slot s) (requests : List Request) :
    s.serveAll requests = slot.serveAll m requests := by
  induction requests generalizing slot s with
  | nil => rfl
  | cons request requests ih =>
    obtain ⟨answer, shows⟩ := serve_spec h request
    simp only [serveAll, Slot.serveAll, answer, ih shows]

theorem render_unchanged {e : RenderError} (failed : s.render.1 = .error e) : s.render.2 = s := by
  rcases s.render_ok_or_again with ⟨document, after, same⟩ | same
  · rw [same] at failed
    cases failed
  · rw [same]

theorem render_cleared (s : Session) (comment : Text) : ∃ after,
    (s.clear.set comment).render = (.ok (DocComment.render s.markup comment), after) ∧
      after.markup = s.markup :=
  ⟨_, render_of_ready rfl rfl, rfl⟩

end Session

namespace Conversion

/-- Each input is rendered by a session that was cleared, which cannot fail. -/
theorem convert_not_render (dir : Path) (c : Conversion) (input other : Path) (e : RenderError) :
    (c.convert dir input).2 ≠ some (.render other e) := by
  unfold convert
  cases c.tree.read input with
  | error cause => exact nofun
  | ok comment =>
    obtain ⟨session, rendered, _⟩ := Session.render_cleared c.session comment
    simp only [rendered]
    cases c.tree.write (outputOf dir input) _ with
    | error cause => exact nofun
    | ok tree => exact nofun

theorem convertAll_not_render (dir : Path) (c : Conversion) (inputs : List Path) (other : Path)
    (e : RenderError) : (c.convertAll dir inputs).2 ≠ some (.render other e) := by
  induction inputs generalizing c with
  | nil => exact nofun
  | cons input inputs ih =>
    have first := convert_not_render dir c input other e
    rw [convertAll]
    cases converted : c.convert dir input with
    | mk c failure =>
      rw [converted] at first
      cases failure with
      | none => exact ih c
      | some failure => exact first

end Conversion

theorem runFiles_not_render [Patterns] (m : Markup) (output : Option Text) (tree : FileTree)
    (files : List Text) (other : Path) (e : RenderError) :
    (runFiles m output tree files).failure ≠ some (.render other e) := by
  cases output with
  | none => exact nofun
  | some dir =>
    simp only [runFiles]
    split
    · exact nofun
    · split
      · exact nofun
      · exact Conversion.convertAll_not_render ⟨dir⟩ _ _ other e

/-- A session that is used again never lets one comment into another. Its answers are those of the
two facts in a `Slot`, a request to render that fails leaves it as it was, and no input of a run on
files fails to be rendered. -/
theorem session_answers_slot [Patterns] (m : Markup) (requests : List Request) :
    ({ markup := m } : Session).serveAll requests = ({} : Slot).serveAll m requests ∧
      (∀ e, (({ markup := m } : Session).reached requests).render.1 = .error e →
        (({ markup := m } : Session).reached requests).render.2 =
          ({ markup := m } : Session).reached requests) ∧
      ∀ output tree files input e,
        (runFiles m output tree files).failure ≠ some (.render input e) :=
  ⟨Session.serveAll_spec ⟨rfl, rfl, rfl, fun _ => rfl⟩ requests,
    fun _ failed => Session.render_unchanged failed, runFiles_not_render m⟩

theorem session_answers_slot_again :
    (({ markup := .xml none } : Session).reached [.set "(:~ x :)".toList, .render]).render.1 =
        .error .alreadyRendered ∧
      (({ markup := .xml none } : Session).reached [.set "(:~ x :)".toList, .render]).render.2 =
        ({ markup := .xml none } : Session).reached [.set "(:~ x :)".toList, .render] :=
  ⟨rfl, (session_answers_slot (.xml none) [.set "(:~ x :)".toList, .render]).2.1 _ rfl⟩

end DocComment
