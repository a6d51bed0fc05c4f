import DocComment.Regex.Set
import DocComment.Text.Letters

/-! Regular expressions, read as far as it takes to tell whether they are right. An expression is a
choice between sequences of parts; a part may be repeated, and groups nest. -/
namespace DocComment.Regex

structure Part where
  depth : Nat := 0
  /-- Modes that are set within a sequence cannot be repeated. -/
  repeatable : Bool := true
deriving DecidableEq, Repr

def depthOfChoice (choices : List Nat) (parts : List Part) : Nat :=
  depthOf (depthOf (parts.map Part.depth) :: choices)

def isGroupName : Text → Bool
  | [] => false
  | c :: cs =>
    (c = '_' || isLetter c) && cs.all fun c => c ∈ "_.[]".toList || isLetterOrNumber c

def Modes.set (m : Modes) (letter : Char) (on : Bool) : Modes :=
  if letter = 'x' then { m with spaced := on }
  else if letter = 'u' then { m with unicode := on }
  else m

/-- Reads the letters of modes up to the colon or the bracket behind them. Those behind a hyphen are
turned off. No letter comes twice. -/
def readModes (m : Modes) (seen : List Char) : Text → Option (Modes × List Char × Text)
  | [] => none
  | c :: rest =>
    if c = ':' || c = ')' then if seen.head? = some '-' then none else some (m, seen, c :: rest)
    else if c ∈ seen || c ∉ "imsRUux-".toList then none
    else readModes (m.set c ('-' ∉ seen)) (c :: seen) rest

/-- What a bracket opens: modes for the rest of the group around it, or a group with its own. -/
inductive Opening where
  | modes (m : Modes)
  | group (m : Modes) (names : List Text)

/-- Reads the name of a group behind an opening bracket. The names of groups differ. -/
def readGroupName (names : List Text) (text : Text) : Option (Text × Text) := do
  let rest ← (Text.after? "?P<".toList text).or (Text.after? "?<".toList text)
  let name := rest.takeWhile (· ≠ '>')
  let rest ← Text.after? ['>'] (rest.drop name.length)
  if isGroupName name && !names.contains name then some (name, rest) else none

/-- Reads what follows an opening bracket. -/
def readOpening (m : Modes) (names : List Text) (text : Text) : Option (Opening × Text) :=
  ((readGroupName names text).map fun (name, rest) => (.group m (name :: names), rest)).or <|
    match text with
    | '?' :: rest => do
      match ← readModes m [] rest with
      | (inner, _, ':' :: rest) => some (.group inner names, rest)
      | (inner, _ :: _, ')' :: rest) => some (.modes inner, rest)
      | _ => none
    | rest => some (.group m names, rest)

/-- Drops the mark that makes a repetition lazy. -/
def dropLazy : Text → Text
  | '?' :: rest => rest
  | rest => rest

/-- Reads a choice up to the bracket that closes its group, or to the end, on top of the names, the
choices and the parts read so far. It gives how deep the choice nests, the names, and the rest. -/
def readChoice (m : Modes) (names : List Text) (choices : List Nat) (parts : List Part)
    (text : Text) : Nat → Option (Nat × List Text × Text)
  | 0 => none
  | fuel + 1 =>
    match m.skip text with
    | [] => some (depthOfChoice choices parts, names, [])
    | ')' :: rest => some (depthOfChoice choices parts, names, ')' :: rest)
    | '|' :: rest => readChoice m names (depthOf (parts.map Part.depth) :: choices) [] rest fuel
    | '(' :: rest => do
      match ← readOpening m names (m.skip rest) with
      | (.modes m, rest) =>
        readChoice m names choices ({ repeatable := false } :: parts) rest fuel
      | (.group inner names, rest) =>
        match ← readChoice inner names [] [] rest fuel with
        | (depth, names, ')' :: rest) =>
          readChoice m names choices ({ depth := depth + 1 } :: parts) rest fuel
        | _ => none
    | '[' :: rest => do
      let (depth, rest) ← readSet m true none [] (← readNegation m rest) fuel
      readChoice m names choices ({ depth := depth + 1 } :: parts) rest fuel
    | '\\' :: rest => do
      let (_, rest) ← readEscape m rest
      readChoice m names choices ({} :: parts) rest fuel
    | '\x7b' :: _ => none
    | c :: rest =>
      if c ∈ "*+?".toList then
        match parts with
        | { depth, repeatable := true } :: parts =>
          readChoice m names choices ({ depth := depth + 1 } :: parts) (dropLazy rest) fuel
        | _ => none
      else if c = '.' && !m.unicode then none
      else readChoice m names choices ({} :: parts) rest fuel

def depthLimit : Nat := 250

/-- Whether a text in which no brace is closed is an expression that can be searched for. -/
def isRegex (text : Text) : Bool :=
  match readChoice {} [] [] [] text (text.length + 1) with
  | some (depth, _, []) => depth ≤ depthLimit
  | _ => false

example : ["", "()", "^see$", "a**?", "[]a]", "[^-a-z&&[:alpha:]]", "(?x: [a - #]\n])",
    "(?i)\\w|\\pL", "(?-u:\\b)", "(?P<n>a)"].all (isRegex ·.toList) = true := by decide +kernel

example : ["(", ")", "*", "|+", "[", "[]", "[z-a]", "[\\d-z]", "\\", "\\1", "\\b", "(?x", "(?)",
    "(?i)*", "a\x7b2", "(?-u).", "(?<n>)(?<n>)"].all (!isRegex ·.toList) = true := by decide +kernel

end DocComment.Regex
