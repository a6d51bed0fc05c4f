import DocComment.Log
import DocComment.Regex.Expression
import DocComment.Text.Bytes
import DocComment.Text.Lines

/-! Directives of a log filter. Each gives the least severe level that is shown of the records it is
about. -/
namespace DocComment

structure Directive where
  /-- The directive is about components that start with this text. -/
  component : Option Text := none
  /-- The directive is about records that have all these fields. -/
  fields : List Text := []
  /-- The least severe level shown, if any. -/
  limit : Option Level
deriving DecidableEq, Repr

namespace Level

def all : List Level := [.error, .warn, .info, .debug, .trace]

def limitOfNumber : Nat → Option (Option Level)
  | 0 => some none
  | n + 1 => all[n]?.map some

/-- Reads a limit: the name of a level in upper or lower case, or the number of levels shown. -/
def readLimit (text : Text) : Option (Option Level) :=
  let digits := if text.head? = some '+' then text.drop 1 else text
  if digits ≠ [] && digits.all Char.isDigit then
    limitOfNumber (digits.foldl (fun n c => 10 * n + (c.toNat - '0'.toNat)) 0)
  else
    let name := text.map Char.toUpper
    if name = "OFF".toList then some none
    else (all.find? fun level => level.name = name).map some

def shown (limit : Option Level) (level : Level) : Bool :=
  limit.any fun limit => level.rank ≤ limit.rank

end Level

namespace Directive

def startsName (c : Char) : Bool := c ∈ "-:_".toList || isLetterOrNumber c

def dropSign : Text → Text
  | c :: cs => if c = '+' || c = '-' then cs else c :: cs
  | [] => []

def isExponent : Text → Bool
  | [] => true
  | c :: cs =>
    let digits := dropSign cs
    c.toLower = 'e' && digits ≠ [] && digits.all Char.isDigit

/-- Digits with or without a point and an exponent, an infinity, or the number that is none. -/
def isNumber (text : Text) : Bool :=
  let text := dropSign text
  let (whole, rest) := text.span Char.isDigit
  let (fraction, rest) := ((Text.after? ['.'] rest).getD rest).span Char.isDigit
  (["inf", "infinity", "nan"].map String.toList).contains (text.map Char.toLower) ||
    whole ++ fraction ≠ [] && isExponent rest

/-- A field is given by its name alone, or with a value: a number or a regular expression. -/
def isField (text : Text) : Bool :=
  match text.cut '=' with
  | _ :: value :: _ => isNumber value || Regex.isRegex value
  | _ => true

example : ["f", "f=", "f=a|b", "f=+1.5e-3", "=see"].all (isField ·.toList) = true ∧
    ["f=(", "f=+", "f=+a"].all (!isField ·.toList) = true := by decide +kernel

/-- Reads the limit behind an equals sign. Without one everything is shown. -/
def readValue : Text → Option (Option Level)
  | [] => some (some .trace)
  | text => Level.readLimit text

/-- Reads what follows the bracket that opens the description of a span, of which `rest` is left
from byte `start` on. There are no spans, so a directive about a span of some name, or with some
value, is about no record at all. -/
def readSpan (text : Text) (component : Option Text) (start : Nat) (rest : Text) :
    Option (List Directive) := do
  let isInName (c : Char) : Bool := c ≠ ']' && c ≠ '\x7b'
  let nameSize := Text.byteSize (rest.takeWhile isInName)
  let span ← text.bytes? start nameSize
  let nameEnd := start + nameSize
  let (fields, stop, rest) ← match rest.dropWhile isInName with
    | '\x7b' :: rest =>
      let size := Text.byteSize (rest.takeWhile (· ≠ '\x7d'))
      let field ← text.bytes? (nameEnd + 1) size
      if field = [] || !isField field then none
      else
        let rest ← Text.after? "\x7d]".toList (rest.dropWhile (· ≠ '\x7d'))
        some ([field], nameEnd + 1 + size + 2, rest)
    | rest => some ([], nameEnd + 1, ← Text.after? [']'] rest)
  let limit ← match rest with
    | [] => some (some .trace)
    | '=' :: _ => readValue (← text.fromByte? (stop + 1))
    | _ => none
  let about := span = [] && fields ≠ [] && fields.all fun field => '=' ∉ field
  return if about then [{ component, fields, limit }] else []

/-- Reads one directive: a limit for everything, a component with an equals sign and its limit, or
a component alone, of which everything is shown. Its parts are found in the text without the blanks
around it, but cut at the same byte positions from the text as it stands; with blanks in front they
all start too early. -/
def read (text : Text) : Option (List Directive) :=
  match text.trim with
  | [] => none
  | '[' :: rest => readSpan text none 1 rest
  | c :: cs =>
    let isInName (c : Char) : Bool := c ≠ '=' && c ≠ '['
    let size := Text.byteSize ((c :: cs).takeWhile isInName)
    if !startsName c then none
    else
      match (c :: cs).dropWhile isInName with
      | '=' :: _ => do
        let component ← text.bytes? 0 size
        let limit ← readValue (← text.fromByte? (size + 1))
        return [{ component, limit }]
      | '[' :: rest => do readSpan text (← text.bytes? 0 size) (size + 1) rest
      | _ =>
        match Level.readLimit text with
        | some limit => some [{ limit }]
        | none => some [{ component := text, limit := some .trace }]

def isAbout (d : Directive) (r : LogRecord) : Bool :=
  (d.component.all fun start => start.isPrefixOf r.component) &&
    d.fields.all fun field => field = "message".toList || r.fields.any fun entry => entry.1 = field

/-- How specific a directive is: first by the length of its component, then by the number of its
fields. -/
def key (d : Directive) : List (List Nat) :=
  [[(d.component.map fun start => start.length + 1).getD 0], [d.fields.length]] ++
    d.fields.map fun field => field.map Char.toNat

example : (read "a=Info".toList, read " a".toList, read "[x] ".toList, read " a=info".toList) =
    (some [{ component := some ['a'], limit := some .info }],
      some [{ component := some " a".toList, limit := some .trace }], some [], none) := by
  decide +kernel

end Directive
end DocComment
