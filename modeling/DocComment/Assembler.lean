import DocComment.Buffers
import DocComment.Event
import DocComment.Line
import DocComment.Markup
import DocComment.Xml.CData

/-! Assembling the elements of a comment. An assembler takes the lines of a block one by one and
writes finished markup into the buffers of the sections. At most one element is open at a time.
Its text is escaped piece by piece as it arrives, and `contentStart` marks where in its buffer the
text begins. -/
namespace DocComment

structure Assembler where
  buffers : Buffers := .empty
  /-- The section of the latest element. -/
  current : Option Section := none
  /-- The latest element still takes text. -/
  isOpen : Bool := false
  contentStart : Nat := 0
  /-- How many leading blanks count as the margin of the latest element. -/
  baseline : Nat := 0
  /-- The end marker has been met. -/
  ended : Bool := false
deriving DecidableEq, Repr

namespace Assembler

def begin (m : Markup) (a : Assembler) (s : Section) (name : Option Text) : Assembler :=
  let buffers := a.buffers.append s (m.startTag s.name name ++ Xml.cdataStart)
  { a with buffers, current := some s, isOpen := true, contentStart := buffers.size s }

/-- Ends the open element, if there is one. Blanks at the end of its text are dropped; the start of
the CDATA section keeps anything before the text from being trimmed. -/
def close (m : Markup) (a : Assembler) : Assembler :=
  match a.isOpen, a.current with
  | true, some s =>
    { a with
      buffers := (a.buffers.trimEnd s).append s (Xml.cdataEnd ++ m.endTag s.name)
      isOpen := false }
  | _, _ => a

def hasContent (a : Assembler) : Bool :=
  match a.current with
  | some s => a.contentStart < a.buffers.size s
  | none => false

def append (a : Assembler) (text : Text) : Assembler :=
  match a.current with
  | some s => { a with buffers := a.buffers.append s (Xml.cdataSafe text) }
  | none => a

/-- Starts a new line, except at the very beginning of an element's text. -/
def breakLine (a : Assembler) : Assembler :=
  if a.hasContent then a.append ['\n'] else a

def alignTo (a : Assembler) (text : Text) : Assembler :=
  { a with baseline := text.leadingBlanks }

def appendAligned (a : Assembler) (text : Text) : Assembler :=
  a.append (text.dropIndent a.baseline)

/-- Takes in the text of a line. A tag line and a line with the begin marker set the margin, and so
does a continuation that is the first to bring text. -/
def absorb (a : Assembler) : Line.Content → Assembler
  | .tag _ _ text => (a.alignTo text).append text.trim
  | .begins text => (a.breakLine.alignTo text).appendAligned text
  | .continuation text =>
    (if a.hasContent then a.append ['\n'] else a.alignTo text).appendAligned text
  | .plain text => a.breakLine.appendAligned text
  | .blank => a

/-- The element that a line opens. A tag line opens an element of its section; another line opens
one only where none is open. -/
def opening? (a : Assembler) : Line.Content → Option (Section × Option Text)
  | .tag s name _ => some (s, name)
  | _ => if a.isOpen then none else some (a.current.getD .description, none)

def process (m : Markup) (a : Assembler) (raw : Text) : Assembler :=
  let line := Line.read raw
  let a := match a.opening? line.content with
    | some (s, name) => (a.close m).begin m s name
    | none => a
  let a := a.absorb line.content
  if line.endsBlock then { a.close m with ended := true } else a

/-- Takes a line of the comment; after the end of the block nothing is taken. -/
def feed (m : Markup) (a : Assembler) (raw : Text) : Assembler :=
  if a.ended then a else a.process m raw

def feedAll (m : Markup) (a : Assembler) (raws : List Text) : Assembler :=
  raws.foldl (feed m) a

def lineEvents (a : Assembler) (raw : Text) : List Event :=
  if a.ended then [.ignored raw]
  else
    let line := Line.read raw
    .classified line :: (a.opening? line.content).toList.map fun (s, name) => .opened s name

def events (m : Markup) (a : Assembler) : List Text → List Event
  | [] => if a.isOpen then [.unterminated (a.current.getD .description)] else []
  | raw :: raws => a.lineEvents raw ++ (a.feed m raw).events m raws

def document (m : Markup) (a : Assembler) : Text :=
  m.startTag "comment".toList none ++ a.buffers.flatten ++ m.endTag "comment".toList

@[simp] theorem close_of_not_isOpen {m : Markup} {a : Assembler} (h : a.isOpen = false) :
    a.close m = a := by
  simp [close, h]

@[simp] theorem feedAll_nil (m : Markup) (a : Assembler) : a.feedAll m [] = a := rfl

@[simp] theorem feedAll_cons (m : Markup) (a : Assembler) (raw : Text) (raws : List Text) :
    a.feedAll m (raw :: raws) = (a.feed m raw).feedAll m raws := rfl

theorem feedAll_of_ended {m : Markup} {a : Assembler} (h : a.ended = true) (raws : List Text) :
    a.feedAll m raws = a := by
  induction raws with
  | nil => rfl
  | cons raw raws ih => simpa [feed, h] using ih

end Assembler
end DocComment
