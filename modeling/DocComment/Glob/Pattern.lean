import DocComment.Text.Search

/-! Patterns for names. A question mark stands for one character, a star for any number of them,
and a class in brackets for one character of, or outside, the ranges listed. Two stars are a pattern
of their own that stands for any number of directories. All characters that stand for themselves
are compared exactly. -/
namespace DocComment.Glob

structure CharRange where
  first : Char
  last : Char
deriving DecidableEq, Repr

def CharRange.contains (r : CharRange) (c : Char) : Bool := r.first ≤ c && c ≤ r.last

inductive Token where
  | char (c : Char)
  | anyChar
  | anySequence
  | directories
  | oneOf (ranges : List CharRange)
  | noneOf (ranges : List CharRange)
deriving DecidableEq, Repr

inductive Flaw where
  | longWildcard
  | partialComponent
  | invalidRange
deriving DecidableEq, Repr

structure PatternError where
  position : Nat
  flaw : Flaw
deriving DecidableEq, Repr

def Flaw.message : Flaw → Text
  | .longWildcard => "wildcards are either regular `*` or recursive `**`".toList
  | .partialComponent => "recursive wildcards must form a single path component".toList
  | .invalidRange => "invalid range pattern".toList

def PatternError.message (e : PatternError) : Text :=
  "Pattern syntax error near position ".toList ++ Nat.toDigits 10 e.position ++ ": ".toList ++
    e.flaw.message

/-- The ranges listed in a class. A hyphen between two characters makes a range of them. -/
def charRanges : Text → List CharRange
  | first :: '-' :: last :: rest => ⟨first, last⟩ :: charRanges rest
  | c :: rest => ⟨c, c⟩ :: charRanges rest
  | [] => []

/-- The members of a class, from behind the opening bracket. The first one may be a closing
bracket. -/
def classMembers : Text → Option Text
  | first :: rest => if ']' ∈ rest then some (first :: rest.takeWhile (· ≠ ']')) else none
  | [] => none

/-- The token at the start of `c :: rest`, with the number of characters it takes. It stands at
`position`, behind the character `before` if that is not the start of the pattern. -/
def Token.read (before : Option Char) (position : Nat) (c : Char) (rest : Text) :
    Except PatternError (Token × Nat) :=
  match c with
  | '?' => .ok (.anyChar, 1)
  | '*' =>
    match (rest.takeWhile (· = '*')).length with
    | 0 => .ok (.anySequence, 1)
    | 1 =>
      if before.all (· = '/') then
        match rest.drop 1 with
        | [] => .ok (.directories, 2)
        | '/' :: _ => .ok (.directories, 3)
        | _ => .error ⟨position + 2, .partialComponent⟩
      else .error ⟨position - 1, .partialComponent⟩
    | _ => .error ⟨position + 2, .longWildcard⟩
  | '[' =>
    match rest with
    | '!' :: rest =>
      match classMembers rest with
      | some members => .ok (.noneOf (charRanges members), members.length + 3)
      | none => .error ⟨position, .invalidRange⟩
    | rest =>
      match classMembers rest with
      | some members => .ok (.oneOf (charRanges members), members.length + 2)
      | none => .error ⟨position, .invalidRange⟩
  | c => .ok (.char c, 1)

def tokens (pattern : Text) : Except PatternError (List Token) := go none 0 0 pattern
where
  /-- Reads on behind the character `before`. The next `skip` characters belong to a token that is
  already read. -/
  go (before : Option Char) (position skip : Nat) : Text → Except PatternError (List Token)
    | [] => .ok []
    | c :: rest =>
      match skip with
      | skip + 1 => go (some c) (position + 1) skip rest
      | 0 => do
        let (token, size) ← Token.read before position c rest
        return token :: (← go (some c) (position + 1) (size - 1) rest)

/-- Whether one character may stand for a token. -/
def Token.admits (c : Char) : Token → Bool
  | .char d => c = d
  | .anyChar => true
  | .oneOf ranges => ranges.any fun r => r.contains c
  | .noneOf ranges => !ranges.any fun r => r.contains c
  | .anySequence | .directories => false

/-- The row of a token in front of a pattern, from the row of that pattern. -/
def Token.row (token : Token) : Text → List Bool → List Bool
  | c :: cs, _ :: row => (token.admits c && row.headD false) :: token.row cs row
  | _, _ => [false]

/-- For each place in a row, whether there is a hit at that place or behind it. -/
def hitsFrom : List Bool → List Bool
  | [] => []
  | hit :: row =>
    let later := hitsFrom row
    (hit || later.headD false) :: later

/-- For a name and for each of its end parts, the longest first, whether it fits a pattern. All
end parts are looked at together, so that the work grows with the length of the name and not with
the number of ways to share it out among the stars. -/
def fitRow : List Token → Text → List Bool
  | [], name => name.foldr (fun _ row => false :: row) [true]
  | .anySequence :: rest, name => hitsFrom (fitRow rest name)
  | token :: rest, name => token.row name (fitRow rest name)

/-- Whether a whole name fits a pattern. -/
def fits (pattern : List Token) (name : Text) : Bool := (fitRow pattern name).headD false

/-- The pattern that only the text itself fits. -/
def escape (text : Text) : Text :=
  text.flatMap fun c => if c ∈ ['?', '*', '[', ']'] then ['[', c, ']'] else [c]

theorem fitRow_cons (pattern : List Token) (c : Char) (cs : Text) :
    ∃ hit, fitRow pattern (c :: cs) = hit :: fitRow pattern cs := by
  induction pattern with
  | nil => exact ⟨false, rfl⟩
  | cons token rest ih =>
    obtain ⟨hit, row⟩ := ih
    cases token <;> simp [fitRow, row, hitsFrom, Token.row]

theorem fitRow_nil (pattern : List Token) : ∃ hit, fitRow pattern [] = [hit] := by
  induction pattern with
  | nil => exact ⟨true, rfl⟩
  | cons token rest ih =>
    obtain ⟨hit, row⟩ := ih
    cases token <;> simp [fitRow, row, hitsFrom, Token.row]

theorem fitRow_token {token : Token} (h : token ≠ .anySequence) (rest : List Token) (name : Text) :
    fitRow (token :: rest) name = token.row name (fitRow rest name) := by
  rw [fitRow]
  exact h

@[simp] theorem nil_fits (name : Text) : fits [] name = name.isEmpty := by cases name <;> rfl

@[simp] theorem sequence_fits_nil (rest : List Token) :
    fits (.anySequence :: rest) [] = fits rest [] := by
  obtain ⟨hit, row⟩ := fitRow_nil rest
  simp [fits, fitRow, row, hitsFrom]

@[simp] theorem sequence_fits_cons (rest : List Token) (c : Char) (cs : Text) :
    fits (.anySequence :: rest) (c :: cs) =
      (fits rest (c :: cs) || fits (.anySequence :: rest) cs) := by
  obtain ⟨hit, row⟩ := fitRow_cons rest c cs
  simp [fits, fitRow, row, hitsFrom]

theorem token_fits_nil {token : Token} (h : token ≠ .anySequence) (rest : List Token) :
    fits (token :: rest) [] = false := by
  simp [fits, fitRow_token h, Token.row]

theorem token_fits_cons {token : Token} (h : token ≠ .anySequence) (rest : List Token) (c : Char)
    (cs : Text) : fits (token :: rest) (c :: cs) = (token.admits c && fits rest cs) := by
  obtain ⟨hit, row⟩ := fitRow_cons rest c cs
  simp [fits, fitRow_token h, row, Token.row]

/-- A star takes any part of the name and leaves an end part to the rest of the pattern. -/
theorem sequence_fits_iff {rest : List Token} {name : Text} :
    fits (.anySequence :: rest) name = true ↔ ∃ s, s <:+ name ∧ fits rest s = true := by
  induction name with
  | nil => simp
  | cons c cs ih =>
    rw [sequence_fits_cons, Bool.or_eq_true, ih]
    constructor
    · rintro (whole | ⟨s, suffix, holds⟩)
      · exact ⟨_, List.suffix_rfl, whole⟩
      · exact ⟨s, suffix.trans (List.suffix_cons c cs), holds⟩
    · rintro ⟨s, suffix, holds⟩
      rcases List.suffix_cons_iff.mp suffix with rfl | shorter
      · exact .inl holds
      · exact .inr ⟨s, shorter, holds⟩

/-- A pattern of plain characters fits the text it spells and no other. -/
theorem fits_chars {text name : Text} : fits (text.map .char) name = true ↔ name = text := by
  induction text generalizing name with
  | nil => simp
  | cons c cs ih =>
    have plain : Token.char c ≠ .anySequence := nofun
    cases name with
    | nil => simp [token_fits_nil plain]
    | cons d ds => simp [token_fits_cons plain, Token.admits, ih]

example : tokens "**/[!a-c]?]*".toList =
    .ok [.directories, .noneOf [⟨'a', 'c'⟩], .anyChar, .char ']', .anySequence] := rfl

example : [tokens "a**".toList, tokens "a/**b".toList, tokens "***".toList, tokens "x[!]".toList] =
    [.error ⟨0, .partialComponent⟩, .error ⟨4, .partialComponent⟩, .error ⟨2, .longWildcard⟩,
      .error ⟨1, .invalidRange⟩] := rfl

end DocComment.Glob
