import DocComment.Text.Search

/-! Character data. A CDATA section ends at its first `]]>`, so a text that holds this word is
spread over several adjacent sections, each cut between the second bracket and the angle. -/
namespace DocComment.Xml

def cdataStart : Text := "<![CDATA[".toList

def cdataEnd : Text := "]]>".toList

def cdataSafe (text : Text) : Text :=
  text.replaceAll cdataEnd "]]]]><![CDATA[>".toList

/-- Reads character data from behind a `cdataStart`, through all the sections that follow without a
gap, and gives the rest. -/
def readSections (input : Text) : Option (Text × Text) := go 0 input
where
  /-- The next `skip` characters are markup between two sections. -/
  go : Nat → Text → Option (Text × Text)
    | _, [] => none
    | skip + 1, _ :: cs => go skip cs
    | 0, c :: cs =>
      match Text.after? cdataEnd (c :: cs) with
      | some rest =>
        if cdataStart.isPrefixOf rest then go (cdataEnd.length + cdataStart.length - 1) cs
        else some ([], rest)
      | none => (go 0 cs).map fun (text, rest) => (c :: text, rest)

example : cdataSafe "]]]>".toList = "]]]]]><![CDATA[>".toList := by decide

example : readSections (cdataSafe "a]]]>".toList ++ "]]></x>".toList) =
    some ("a]]]>".toList, "</x>".toList) := by decide

end DocComment.Xml
