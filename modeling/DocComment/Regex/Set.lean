import DocComment.Regex.Escape

/-! Sets of characters in brackets: single characters, ranges, classes, sets in sets, and sets
joined by operators. A set is read as far as it takes to tell whether it is right and how deep it
nests. -/
namespace DocComment.Regex

/-- How deep parts nest: one part as deep as it is, several one level deeper than the deepest. -/
def depthOf : List Nat → Nat
  | [] => 0
  | [depth] => depth
  | depths => depths.foldl max 0 + 1

def classNames : List Text :=
  ["alnum", "alpha", "ascii", "blank", "cntrl", "digit", "graph", "lower", "print", "punct",
    "space", "upper", "word", "xdigit"].map String.toList

/-- Reads a named class behind its bracket, up to `:]`, and whether it is negated. -/
def readClassName (text : Text) : Option (Bool × Text) := do
  let rest ← Text.after? [':'] text
  let (negated, rest) := match rest with
    | '^' :: rest => (true, rest)
    | rest => (false, rest)
  let name := rest.takeWhile (· ≠ ':')
  let rest ← Text.after? ":]".toList (rest.drop name.length)
  if classNames.contains name then some (negated, rest) else none

/-- Without characters of all scripts a set holds only ASCII characters. -/
def Piece.isMember (m : Modes) : Piece → Bool
  | .char c => m.unicode || c.toNat < 0x80
  | .several => true
  | .place => false

def readMember (m : Modes) : Text → Option (Piece × Text)
  | [] => none
  | '\\' :: rest => do
    let (piece, rest) ← readEscape m rest
    if piece.isMember m then some (piece, rest) else none
  | c :: rest => if (Piece.char c).isMember m then some (.char c, rest) else none

/-- The character that tells whether a hyphen makes a range. Of a comment only the first `#` is
passed over. -/
def afterHyphen? (m : Modes) (text : Text) : Option Char :=
  if m.spaced then
    match text.dropWhile isBlank with
    | '#' :: rest => (rest.dropWhile isBlank).head?
    | rest => rest.head?
  else text.head?

/-- Reads a member, or a range from one character to another that is not smaller. A hyphen before
another one or before the end of the set makes no range. -/
def readRange (m : Modes) (text : Text) : Option Text := do
  let (first, rest) ← readMember m text
  match m.skip rest with
  | '-' :: rest =>
    if afterHyphen? m rest ∈ [some ']', some '-'] then some ('-' :: rest)
    else
      match first, ← readMember m (m.skip rest) with
      | .char low, (.char high, rest) => if low ≤ high then some rest else none
      | _, _ => none
  | rest => some rest

/-- Reads the start of a set behind its bracket. -/
def readNegation (m : Modes) (text : Text) : Option Text :=
  match m.skip text with
  | '^' :: rest => if m.unicode then some rest else none
  | rest => some rest

/-- How deep a set nests that an operator joins to the one on its left. -/
def joined (left : Option Nat) (depth : Nat) : Nat :=
  match left with
  | none => depth
  | some left => max left depth + 1

/-- Reads a set up to the bracket that closes it, on top of the members read so far. At its start
hyphens stand for themselves, and so does a closing bracket as the first member. -/
def readSet (m : Modes) (atStart : Bool) (left : Option Nat) (members : List Nat) (text : Text) :
    Nat → Option (Nat × Text)
  | 0 => none
  | fuel + 1 =>
    let depth := joined left (depthOf members)
    match m.skip text with
    | [] => none
    | ']' :: rest =>
      if atStart && members = [] then readSet m false left [0] rest fuel else some (depth, rest)
    | '-' :: '-' :: rest =>
      if atStart then readSet m true left (0 :: members) ('-' :: rest) fuel
      else readSet m false (some depth) [] rest fuel
    | '&' :: '&' :: rest | '~' :: '~' :: rest => readSet m false (some depth) [] rest fuel
    | '[' :: rest =>
      match readClassName rest with
      | some (negated, rest) =>
        if negated && !m.unicode then none else readSet m false left (0 :: members) rest fuel
      | none => do
        let (inner, rest) ← readSet m true none [] (← readNegation m rest) fuel
        readSet m false left ((inner + 1) :: members) rest fuel
    | c :: rest =>
      if atStart && c = '-' then readSet m true left (0 :: members) rest fuel
      else do readSet m false left (0 :: members) (← readRange m (c :: rest)) fuel

end DocComment.Regex
