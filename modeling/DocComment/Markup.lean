import DocComment.Xml.Escape

/-! The markup of a rendered comment: how the start and the end of an element are written. -/
namespace DocComment

structure Markup where
  /-- The start of an element with the given name and, for a custom tag that carries one, the value
  of its `tag` attribute. -/
  startTag : Text → Option Text → Text
  endTag : Text → Text

namespace Markup

/-- An element name, qualified by a namespace unless that is absent or empty. -/
def qualify (ns : Option Text) (name : Text) : Text :=
  match ns with
  | none | some [] => name
  | some ns => ns ++ ':' :: name

/-- The value of a `tag` attribute is escaped; names and namespaces are written as they are. -/
def xml (ns : Option Text) : Markup where
  startTag
    | name, none => '<' :: qualify ns name ++ ['>']
    | name, some tag => '<' :: qualify ns name ++ " tag=\"".toList ++ Xml.escape tag ++ "\">".toList
  endTag name := "</".toList ++ qualify ns name ++ ['>']

end Markup
end DocComment
