import DocComment.Section
import DocComment.Text.Blank

/-! Lines of a comment block. A line is read on its own: its keyword, begin marker or leading colon
decide what it contributes, and its first end marker cuts off everything after it. -/
namespace DocComment

def beginMarker : Text := "(:~".toList

def endMarker : Text := ":)".toList

namespace Line

/-- What a line contributes once its end marker has been cut off. -/
inductive Content where
  /-- A keyword stands in the line: the text after it, and after the name of a custom tag. -/
  | tag (target : Section) (name : Option Text) (text : Text)
  /-- The line holds the begin marker: the text after it. -/
  | begins (text : Text)
  /-- The line starts with a colon: the text after it. -/
  | continuation (text : Text)
  /-- Any other line, whole. -/
  | plain (text : Text)
  /-- The only colon at the start of the line is that of the end marker. -/
  | blank
deriving DecidableEq, Repr

end Line

structure Line where
  content : Line.Content
  endsBlock : Bool
deriving DecidableEq, Repr

namespace Line

/-- The part of a line before its first end marker. -/
def body (raw : Text) : Text :=
  match raw.indexOf? endMarker with
  | some i => raw.take i
  | none => raw

/-- The section whose keyword comes first in the search order, with the position right after the
leftmost occurrence of that keyword. -/
def findKeyword? (raw : Text) : Option (Section × Nat) :=
  Section.tagged.findSome? fun s =>
    (raw.indexOf? s.keyword).map fun i => (s, i + s.keyword.length)

/-- The longest piece at the start of a text that has neither a blank nor an end marker. -/
def leadingName : Text → Text
  | [] => []
  | ':' :: ')' :: _ => []
  | c :: cs => if isBlank c then [] else c :: leadingName cs

/-- The name written behind the custom keyword. A colon separates the two, unless it is the colon
of an end marker. -/
def separatedName? : Text → Option Text
  | ':' :: ')' :: _ => none
  | ':' :: rest => some (leadingName rest)
  | _ => none

/-- Reads the text behind a keyword that ends at position `stop`. -/
def tagContent (raw : Text) (s : Section) (stop : Nat) : Content :=
  match if s = .custom then separatedName? (raw.drop stop) else none with
  | some name =>
    .tag s (if name = [] then none else some name) ((body raw).drop (stop + 1 + name.length))
  | none => .tag s none ((body raw).drop stop)

def untaggedContent (raw : Text) : Content :=
  match (body raw).trimStart, raw.trimStart with
  | ':' :: text, _ => .continuation text
  | _, ':' :: _ => .blank
  | _, _ => .plain (body raw)

def readContent (raw : Text) : Content :=
  match findKeyword? raw with
  | some (s, stop) => tagContent raw s stop
  | none =>
    match raw.indexOf? beginMarker with
    | some i => .begins ((body raw).drop (i + beginMarker.length))
    | none => untaggedContent raw

def read (raw : Text) : Line where
  content := readContent raw
  endsBlock := (raw.indexOf? endMarker).isSome

example : read " : @custom::) rest".toList = ⟨.tag .custom none [], true⟩ := by decide

example : read "foo @seebar @param".toList = ⟨.tag .param none [], false⟩ := by decide

example : read "  :) code".toList = ⟨.blank, true⟩ := by decide

end Line
end DocComment
