import DocComment.Element
import DocComment.Text.Lines

/-! Comment blocks as a whole: which lines of a comment belong to the block, which elements they
define, and the document made of these. -/
namespace DocComment

/-- The lines up to and including the first with the end marker. -/
def blockLines : List Text → List Text
  | [] => []
  | raw :: raws => if (Line.read raw).endsBlock then [raw] else raw :: blockLines raws

/-- The elements that a comment defines, in the order of its lines. -/
def elementsOf (comment : Text) : List Element :=
  Element.ofLines ((blockLines comment.lines).map Line.readContent)

def documentOf (m : Markup) (elements : List Element) : Text :=
  m.startTag "comment".toList none ++ (Element.bySection elements).flatMap (Element.render m) ++
    m.endTag "comment".toList

example : elementsOf "@see\n : x\n :  y\nz :)\n@since".toList = [⟨.see, none, "x\n y\nz".toList⟩] := by
  decide

end DocComment
