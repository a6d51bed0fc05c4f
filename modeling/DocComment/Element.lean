import DocComment.Line
import DocComment.Markup
import DocComment.Xml.CData

/-! The elements that the lines of a block define, each with its text as it is read: not escaped,
and on its own. Every tag line starts an element, and the lines up to the next one belong to it;
lines before the first tag line make up the description. -/
namespace DocComment

structure Element where
  target : Section
  name : Option Text
  text : Text
deriving DecidableEq, Repr

/-- An element whose lines are still being read. -/
structure Draft where
  target : Section
  name : Option Text
  text : Text
  /-- How many leading blanks are dropped from further lines. -/
  margin : Nat
deriving DecidableEq, Repr

namespace Draft

def tagged (s : Section) (name : Option Text) (text : Text) : Draft :=
  ⟨s, name, text.trim, text.leadingBlanks⟩

def description : Draft := ⟨.description, none, [], 0⟩

/-- Adds a line with a given margin. Lines are separated once there is any text. -/
def addLine (d : Draft) (margin : Nat) (line : Text) : Draft :=
  { d with
    text := (if d.text = [] then [] else d.text ++ ['\n']) ++ line.dropIndent margin
    margin }

def add (d : Draft) : Line.Content → Draft
  | .begins line => d.addLine line.leadingBlanks line
  | .continuation line => d.addLine (if d.text = [] then line.leadingBlanks else d.margin) line
  | .plain line => d.addLine d.margin line
  | .blank | .tag _ _ _ => d

def finish (d : Draft) : Element := ⟨d.target, d.name, d.text.trimEnd⟩

def elements (d : Draft) : List Line.Content → List Element
  | [] => [d.finish]
  | .tag s name text :: rest => d.finish :: (tagged s name text).elements rest
  | line :: rest => (d.add line).elements rest

end Draft

namespace Element

def ofLines : List Line.Content → List Element
  | [] => []
  | .tag s name text :: rest => (Draft.tagged s name text).elements rest
  | line :: rest => (Draft.description.add line).elements rest

def render (m : Markup) (e : Element) : Text :=
  m.startTag e.target.name e.name ++ Xml.cdataStart ++ Xml.cdataSafe e.text ++ Xml.cdataEnd ++
    m.endTag e.target.name

/-- The elements section by section, each section in the given order. -/
def bySection (elements : List Element) : List Element :=
  Section.all.flatMap fun s => elements.filter fun e => e.target = s

end Element
end DocComment
