import DocComment.Line
import DocComment.Log
import DocComment.Text.Quoted

/-! Events: what rendering a comment reports as it goes through the lines. -/
namespace DocComment

inductive Event where
  /-- A line of the block was read. -/
  | classified (line : Line)
  /-- An element was opened, with its tag name if it has one. -/
  | opened (target : Section) (name : Option Text)
  /-- A line after the end of the block was skipped. -/
  | ignored (line : Text)
  /-- The lines ran out while an element was open. -/
  | unterminated (target : Section)
deriving DecidableEq, Repr

namespace Event

def level : Event → Level
  | .classified _ | .ignored _ => .trace
  | .opened _ _ => .debug
  | .unterminated _ => .warn

def message : Event → Text
  | .classified _ => "classified".toList
  | .opened _ _ => "begin section".toList
  | .ignored _ => "ignoring text after end of comment".toList
  | .unterminated _ => "comment block has no end marker; closing open section".toList

def optionalName : Option Text → Text
  | none => "None".toList
  | some name => "Some(".toList ++ name.quoted ++ [')']

def sectionLabel (s : Section) : Text :=
  match s.name with
  | c :: cs => c.toUpper :: cs
  | [] => []

def contentLabel : Line.Content → Text
  | .tag s name text =>
    "Tag \x7b section: ".toList ++ sectionLabel s ++ ", name: ".toList ++ optionalName name ++
      ", text: ".toList ++ text.quoted ++ " \x7d".toList
  | .begins text => "Begin(".toList ++ text.quoted ++ [')']
  | .continuation text => "Continuation(".toList ++ text.quoted ++ [')']
  | .plain text => "Plain(".toList ++ text.quoted ++ [')']
  | .blank => "Blank".toList

def lineLabel (line : Line) : Text :=
  "Line \x7b kind: ".toList ++ contentLabel line.content ++ ", ends_block: ".toList ++
    (if line.endsBlock then "true".toList else "false".toList) ++ " \x7d".toList

def fields : Event → List (Text × Text)
  | .classified line => [("classified".toList, lineLabel line)]
  | .opened s name => [("section".toList, s.name), ("tag".toList, optionalName name)]
  | .ignored line => [("line".toList, line)]
  | .unterminated s => [("section".toList, s.name)]

def record (e : Event) : LogRecord where
  level := e.level
  component := "xqdoc::parser::comment".toList
  message := e.message
  fields := e.fields

end Event
end DocComment
