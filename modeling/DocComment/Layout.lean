import DocComment.Section

/-! The usual layout of a comment block: the markers on lines of their own, a colon in front of
every line between them, and each tag on a new line. -/
namespace DocComment.Layout

/-- A tagged element by the lines of its text. -/
structure Entry where
  target : Section
  name : Option Text := none
  first : Text
  more : List Text := []
deriving DecidableEq, Repr

def Entry.text (e : Entry) : Text := e.first ++ e.more.flatMap ('\n' :: ·)

def writeLine (line : Text) : Text := " : ".toList ++ line ++ ['\n']

def Entry.write (e : Entry) : Text :=
  let name := (e.name.map (':' :: ·)).getD []
  writeLine (e.target.keyword ++ name ++ ' ' :: e.first) ++ e.more.flatMap writeLine

def write (description : List Text) (entries : List Entry) : Text :=
  "(:~\n".toList ++ description.flatMap writeLine ++ entries.flatMap Entry.write ++ " :)".toList

end DocComment.Layout
