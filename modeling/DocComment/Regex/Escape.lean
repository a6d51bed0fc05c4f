import DocComment.Text.Blank

/-! Pieces of a regular expression: the modes in which it is read, what does not count in them, and
what stands behind a backslash. -/
namespace DocComment.Regex

structure Modes where
  /-- Blanks do not count, nor do comments from `#` to the end of their line. -/
  spaced : Bool := false
  /-- Classes take in characters of all scripts. Otherwise they are for ASCII, and a piece that
  could fit a part of a longer character is not right. -/
  unicode : Bool := true
deriving DecidableEq, Repr

namespace Modes

def skip (m : Modes) (text : Text) : Text := if m.spaced then go false text else text
where
  /-- Drops blanks and comments, from inside a comment or from outside. -/
  go : Bool → Text → Text
    | _, [] => []
    | true, c :: cs => go (c ≠ '\n') cs
    | false, c :: cs =>
      if isBlank c then go false cs else if c = '#' then go true cs else c :: cs

end Modes

inductive Piece where
  | char (c : Char)
  /-- One character of several. -/
  | several
  /-- A place between two characters. -/
  | place
deriving DecidableEq, Repr

def hexValue? (c : Char) : Option Nat :=
  if c.isDigit then some (c.toNat - '0'.toNat)
  else if 'a' ≤ c.toLower && c.toLower ≤ 'f' then some (c.toLower.toNat - 'a'.toNat + 10)
  else none

/-- Reads a number of hexadecimal digits, on top of the value read so far. -/
def readHex (m : Modes) : Nat → Nat → Text → Option (Nat × Text)
  | 0, value, text => some (value, text)
  | _ + 1, _, [] => none
  | count + 1, value, c :: cs => do
    let digit ← hexValue? c
    readHex m count (16 * value + digit) (m.skip cs)

/-- The characters that letters behind a backslash stand for. -/
def controls : List (Char × Char) :=
  [('a', '\x07'), ('f', '\x0c'), ('n', '\n'), ('r', '\r'), ('t', '\t'), ('v', '\x0b')]

/-- Reads a character given by its code: two, four or eight digits. Two digits count as a byte where
characters do. -/
def readCode (m : Modes) (kind : Char) (text : Text) : Option (Piece × Text) := do
  let count := if kind = 'x' then 2 else if kind = 'u' then 4 else 8
  let (code, rest) ← readHex m count 0 (m.skip text)
  if code.isValidChar && (m.unicode || kind ≠ 'x' || code < 0x80) then
    some (.char (Char.ofNat code), rest)
  else none

/-- Reads the letter of a general category. -/
def readCategory (m : Modes) (text : Text) : Option (Piece × Text) :=
  match m.skip text with
  | [] => none
  | c :: rest =>
    if m.unicode && c.toUpper ∈ "CLMNPSZ".toList then some (.several, m.skip rest) else none

/-- Reads what stands behind a backslash. Word boundaries are for ASCII only. -/
def readEscape (m : Modes) : Text → Option (Piece × Text)
  | [] => none
  | c :: rest =>
    if c ∈ "xuU".toList then readCode m c rest
    else if c ∈ "pP".toList then readCategory m rest
    else if c ∈ "dsw".toList then some (.several, rest)
    else if c ∈ "DSW".toList then if m.unicode then some (.several, rest) else none
    else if c ∈ "Az".toList then some (.place, rest)
    else if c ∈ "bB<>".toList then if m.unicode then none else some (.place, rest)
    else
      match controls.lookup c with
      | some control => some (.char control, rest)
      | none => if c.toNat < 0x80 && !c.isAlphanum then some (.char c, rest) else none

end DocComment.Regex
