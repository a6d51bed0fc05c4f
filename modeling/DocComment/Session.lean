import DocComment.Assembler
import DocComment.Text.ByteLines

/-! Rendering sessions. A session holds one comment at a time and renders it once; it has to be
cleared before it renders again. -/
namespace DocComment

inductive RenderError where
  /-- The comment could not be split into lines. -/
  | unreadable (cause : Text)
  /-- The session has already rendered and was not cleared since. -/
  | alreadyRendered
deriving DecidableEq, Repr

def RenderError.message : RenderError → Text
  | .unreadable cause => "problems processing the comment block: ".toList ++ cause
  | .alreadyRendered =>
    "comment block already parsed; call clear() before parsing again".toList

inductive Request where
  | set (comment : Text)
  | render
  | clear
deriving DecidableEq, Repr

structure Session where
  markup : Markup
  comment : Option Text := none
  rendered : Bool := false
  assembler : Assembler := {}

namespace Session

def clear (s : Session) : Session := { markup := s.markup }

/-- Puts a comment in place of the one held. A session that has rendered does not become ready by
this. -/
def set (s : Session) (comment : Text) : Session :=
  { s with comment := some comment, assembler := { s.assembler with baseline := 0 } }

/-- The lines of a comment, read from its bytes once all breaks are written alike. -/
def readComment (comment : Text) : Except RenderError (List Text) :=
  (Text.readLines comment.unifyBreaks.utf8).mapError .unreadable

def assemble (s : Session) (raws : List Text) : Assembler :=
  (s.assembler.feedAll s.markup raws).close s.markup

/-- Renders the comment held. Without a comment the result is empty and nothing changes. A comment that
cannot be read counts as rendered. -/
def render (s : Session) : Except RenderError Text × Session :=
  match s.comment with
  | none => (.ok [], s)
  | some comment =>
    if s.rendered then (.error .alreadyRendered, s)
    else
      match readComment comment with
      | .error e => (.error e, { s with rendered := true })
      | .ok raws =>
        let assembler := s.assemble raws
        (.ok (assembler.document s.markup), { s with rendered := true, assembler })

def events (s : Session) : List Event :=
  match s.comment with
  | none => []
  | some comment =>
    if s.rendered then []
    else
      match readComment comment with
      | .error _ => []
      | .ok raws => s.assembler.events s.markup raws

/-- Serves a request. Only a request to render is answered. -/
def serve (s : Session) : Request → Option (Except RenderError Text) × Session
  | .set comment => (none, s.set comment)
  | .clear => (none, s.clear)
  | .render => (some s.render.1, s.render.2)

def serveAll (s : Session) : List Request → List (Option (Except RenderError Text))
  | [] => []
  | request :: requests =>
    let (answer, s) := s.serve request
    answer :: s.serveAll requests

end Session

def render (m : Markup) (comment : Text) : Text :=
  ((({} : Assembler).feedAll m comment.lines).close m).document m

def renderEvents (m : Markup) (comment : Text) : List Event :=
  ({} : Assembler).events m comment.lines

example : String.ofList (render (.xml none) "(:~ Adds.\n : @custom:k v :)".toList) =
    "<comment><description><![CDATA[Adds.]]></description>" ++
      "<custom tag=\"k\"><![CDATA[v]]></custom></comment>" := by decide +kernel

end DocComment
