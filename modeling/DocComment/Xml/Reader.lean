import DocComment.Element
import DocComment.Text.Lines

/-! Reading a rendered comment back: the elements that a document holds, in the order in which they
stand there. -/
namespace DocComment.Xml

/-- White space in an attribute value counts as a space. -/
def attributeChar (c : Char) : Char := if c ∈ ['\t', '\n', '\r'] then ' ' else c

def readValue (input : Text) : Option (Text × Text) := do
  let value := input.takeWhile (· ≠ '"')
  let rest ← Text.after? "\">".toList (input.drop value.length)
  return (unescape (value.map attributeChar), rest)

def readStart (ns : Option Text) (input : Text) : Option (Section × Option Text × Text) := do
  let body ← Text.after? ['<'] input
  let name := body.takeWhile fun c => c ≠ '>' && c ≠ ' '
  let s ← Section.all.find? fun s => Markup.qualify ns s.name = name
  let rest := body.drop name.length
  match Text.after? " tag=\"".toList rest with
  | some value =>
    let (tag, rest) ← readValue value
    return (s, some tag, rest)
  | none => return (s, none, ← Text.after? ['>'] rest)

def readElement (ns : Option Text) (input : Text) : Option (Element × Text) := do
  let (target, name, rest) ← readStart ns input
  let (text, rest) ← readSections (← Text.after? cdataStart rest)
  let rest ← Text.after? ("</".toList ++ Markup.qualify ns target.name ++ ['>']) rest
  return (⟨target, name, text⟩, rest)

/-- Reads elements as long as there are any, at most `count`, and gives the rest. -/
def readElements (ns : Option Text) : Nat → Text → List Element × Text
  | 0, input => ([], input)
  | count + 1, input =>
    match readElement ns input with
    | none => ([], input)
    | some (e, rest) =>
      let (elements, rest) := readElements ns count rest
      (e :: elements, rest)

/-- Reads a whole document, after every line break in it has become a line feed. -/
def readDocument (ns : Option Text) (input : Text) : Option (List Element) := do
  let root := Markup.qualify ns "comment".toList
  let rest ← Text.after? ('<' :: root ++ ['>']) input.unifyBreaks
  let (elements, rest) := readElements ns rest.length rest
  if rest = "</".toList ++ root ++ ['>'] then some elements else none

end DocComment.Xml
