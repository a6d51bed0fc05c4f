import DocComment.Inputs
import DocComment.Proofs.LineBreaks

/-! The pattern for the comment files in a directory. The name of the directory is escaped in it, and
escaped text is always right as a pattern: it is read character by character, and only the last
component of the pattern holds a wildcard of its own. -/
namespace DocComment.Glob

/-- The token that an escaped character is read as. -/
def Token.exactly (c : Char) : Token := if c ∈ ['?', '*', '[', ']'] then .oneOf [⟨c, c⟩] else .char c

/-- The last component of the pattern for a directory. -/
def commentFiles : List Token := .anySequence :: ".xqdoc".toList.map .char

theorem escape_cons (c : Char) (text : Text) : escape (c :: text) = escape [c] ++ escape text := by
  rw [escape, List.flatMap_cons, escape, List.flatMap_singleton, escape]

theorem escape_append (s t : Text) : escape (s ++ t) = escape s ++ escape t := List.flatMap_append

theorem slash_mem_escape_iff {text : Text} : '/' ∈ escape text ↔ '/' ∈ text := by
  rw [escape, List.mem_flatMap]
  constructor
  · rintro ⟨c, member, inside⟩
    split at inside
    · next special =>
      have other : '/' ≠ c := by
        rintro rfl
        exact absurd special (by decide)
      simp [other] at inside
    · rwa [List.mem_singleton.mp inside]
  · exact fun member => ⟨'/', member, by decide⟩

theorem go_escape_singleton (before : Option Char) (position : Nat) (c : Char) (rest : Text) :
    ∃ last after, tokens.go before position 0 (escape [c] ++ rest) =
      (tokens.go (some last) after 0 rest).map (Token.exactly c :: ·) := by
  by_cases special : c ∈ ['?', '*', '[', ']']
  · have quoted : escape [c] = ['[', c, ']'] := by rw [escape, List.flatMap_singleton, if_pos special]
    have member : classMembers (c :: ']' :: rest) = some [c] := by
      simp [classMembers]
    have read : Token.read before position '[' (c :: ']' :: rest) = .ok (.exactly c, 3) := by
      rw [Token.exactly, if_pos special]
      simp only [List.mem_cons, List.not_mem_nil, or_false] at special
      rcases special with rfl | rfl | rfl | rfl <;> simp [Token.read, member, charRanges]
    refine ⟨']', position + 1 + 1 + 1, ?_⟩
    rw [quoted, List.cons_append, List.cons_append, List.cons_append, List.nil_append, tokens.go, read]
    rfl
  · have plain : escape [c] = [c] := by rw [escape, List.flatMap_singleton, if_neg special]
    have read : Token.read before position c rest = .ok (.exactly c, 1) := by
      rw [Token.exactly, if_neg special]
      simp only [List.mem_cons, List.not_mem_nil, or_false, not_or] at special
      rw [Token.read]
      · exact special.1
      · exact special.2.1
      · exact special.2.2.1
    refine ⟨c, position + 1, ?_⟩
    rw [plain, List.cons_append, List.nil_append, tokens.go, read]
    rfl

/-- Escaped text is read as a token for each of its characters, and what follows it as if nothing stood
in front, but for the character there. -/
theorem go_escape (before : Option Char) (position : Nat) (text rest : Text) :
    ∃ last after, tokens.go before position 0 (escape text ++ rest) =
      (tokens.go last after 0 rest).map (text.map Token.exactly ++ ·) := by
  induction text generalizing before position with
  | nil =>
    refine ⟨before, position, ?_⟩
    rw [escape, List.flatMap_nil, List.nil_append]
    cases tokens.go before position 0 rest <;> rfl
  | cons c text ih =>
    obtain ⟨first, position, head⟩ := go_escape_singleton before position c (escape text ++ rest)
    obtain ⟨last, after, tail⟩ := ih (some first) position
    refine ⟨last, after, ?_⟩
    rw [escape_cons, List.append_assoc, head, tail]
    cases tokens.go last after 0 rest <;> rfl

theorem tokens_escape (text : Text) : tokens (escape text) = .ok (text.map Token.exactly) := by
  obtain ⟨last, after, read⟩ := go_escape none 0 text []
  rw [List.append_nil, tokens.go, Except.map, List.append_nil] at read
  exact read

def Component.read (piece : Text) : Except PatternError Component := return .ofTokens (← tokens piece)

/-- The component that an escaped piece of a pattern is read as. -/
def Component.exactly (piece : Text) : Component := .ofTokens (piece.map Token.exactly)

theorem mapM_read_escape (pieces : List Text) :
    (pieces.map escape).mapM Component.read = .ok (pieces.map Component.exactly) := by
  induction pieces with
  | nil => rfl
  | cons piece pieces ih =>
    rw [List.map_cons, List.mapM_cons, ih, Component.read, tokens_escape]
    rfl

theorem map_exactly_ne_directories (piece : Text) : piece.map Token.exactly ≠ [.directories] := by
  intro same
  have inside : Token.directories ∈ piece.map Token.exactly := same ▸ List.mem_singleton_self _
  obtain ⟨c, _, read⟩ := List.mem_map.mp inside
  rw [Token.exactly] at read
  split at read <;> cases read

theorem Component.exactly_ne_directories (piece : Text) : exactly piece ≠ .directories := by
  rw [exactly, ofTokens]
  split
  · exact nofun
  · rw [if_neg (map_exactly_ne_directories piece)]
    exact nofun

theorem collapse_eq_self {components : List Component} (absent : .directories ∉ components) :
    collapse components = components := by
  fun_induction collapse components with
  | case1 rest _ => exact absurd List.mem_cons_self absent
  | case2 c rest _ ih => rw [ih fun inside => absent (List.mem_cons_of_mem c inside)]
  | case3 => rfl

/-- The pieces of the pattern for a directory are escaped but for the last. -/
theorem cut_escape_append (text : Text) : (escape text ++ "/*.xqdoc".toList).cut '/' =
    (text.splitOn '/').map escape ++ ["*.xqdoc".toList] := by
  obtain ⟨pieces, last, absent, absentLast, rfl⟩ := Text.exists_pieces '/' text
  have escaped : escape (pieces.flatMap (· ++ ['/']) ++ last) ++ "/*.xqdoc".toList =
      ((pieces ++ [last]).map escape).flatMap (· ++ ['/']) ++ "*.xqdoc".toList := by
    have inner : escape (pieces.flatMap (· ++ ['/'])) = (pieces.map escape).flatMap (· ++ ['/']) := by
      induction pieces with
      | nil => rfl
      | cons piece pieces ih =>
        have later := ih fun p member => absent p (List.mem_cons_of_mem piece member)
        rw [List.flatMap_cons, escape_append, escape_append, later, List.map_cons, List.flatMap_cons]
        rfl
    rw [escape_append, inner, List.map_append, List.flatMap_append]
    simp
  have absent' : ∀ piece ∈ (pieces ++ [last]).map escape, '/' ∉ piece := by
    intro piece member
    obtain ⟨original, inside, rfl⟩ := List.mem_map.mp member
    rw [slash_mem_escape_iff]
    rcases List.mem_append.mp inside with inside | inside
    · exact absent original inside
    · rwa [List.mem_singleton.mp inside]
  rw [escaped, Text.cut_flatMap_append absent' (by decide) (by decide), Text.splitOn_flatMap_append absent absentLast]

/-- The part of a pattern that is cut into components. -/
def body (pattern : Text) : Text := if pattern.head? = some '/' then pattern.drop 1 else pattern

/-- What stands between the slashes of a directory's path, be it empty. -/
def pieces (dir : Text) : List Text := (body dir).splitOn '/'

theorem head?_escape_append (dir : Text) :
    (escape dir ++ "/*.xqdoc".toList).head? = some '/' ↔ dir = [] ∨ dir.head? = some '/' := by
  cases dir with
  | nil => exact ⟨fun _ => .inl rfl, fun _ => rfl⟩
  | cons c dir =>
    rw [escape_cons, escape, List.flatMap_singleton]
    split
    · next special =>
      have other : c ≠ '/' := by
        rintro rfl
        exact absurd special (by decide)
      simp [other]
    · simp

theorem cut_body_directory {dir : Text} (nonempty : dir ≠ []) : body (escape dir ++ "/*.xqdoc".toList) ≠ [] ∧
    Text.cut '/' (body (escape dir ++ "/*.xqdoc".toList)) = (pieces dir).map escape ++ ["*.xqdoc".toList] := by
  have rest : ∃ text, body dir = text ∧ body (escape dir ++ "/*.xqdoc".toList) = escape text ++ "/*.xqdoc".toList := by
    by_cases slash : dir.head? = some '/'
    · obtain ⟨dir, rfl⟩ := List.head?_eq_some_iff.mp slash
      exact ⟨dir, rfl, rfl⟩
    · have other := mt (head?_escape_append dir).mp (not_or.mpr ⟨nonempty, slash⟩)
      exact ⟨dir, if_neg slash, if_neg other⟩
  obtain ⟨text, inner, same⟩ := rest
  rw [same, pieces, inner]
  exact ⟨by simp, cut_escape_append text⟩

theorem parse_ok {pattern : Text} {ts : List Token} {components : List Component}
    (whole : tokens pattern = .ok ts) (nonempty : body pattern ≠ [])
    (read : (Text.cut '/' (body pattern)).mapM Component.read = .ok components) :
    parse pattern = .ok ⟨pattern.head? = some '/', collapse components, pattern.getLast? = some '/'⟩ := by
  simp only [parse, whole]
  change ((if body pattern = [] then [[]] else Text.cut '/' (body pattern)).mapM Component.read).bind _ = _
  rw [if_neg nonempty, read]
  rfl

/-- The pattern for a directory has the pieces of its path as they are, and then the wildcard for the names of
comment files. -/
theorem parse_directory_eq {dir : Text} (nonempty : dir ≠ []) : parse (escape dir ++ "/*.xqdoc".toList) =
    .ok ⟨dir.head? = some '/', (pieces dir).map Component.exactly ++ [.pattern commentFiles], false⟩ := by
  obtain ⟨last, after, whole⟩ := go_escape none 0 dir "/*.xqdoc".toList
  have rest : tokens.go last after 0 "/*.xqdoc".toList = .ok (.char '/' :: commentFiles) := rfl
  rw [rest] at whole
  obtain ⟨nonempty', cut⟩ := cut_body_directory nonempty
  have wild : ["*.xqdoc".toList].mapM Component.read = .ok [.pattern commentFiles] := rfl
  have read : (Text.cut '/' (body (escape dir ++ "/*.xqdoc".toList))).mapM Component.read =
      .ok ((pieces dir).map Component.exactly ++ [.pattern commentFiles]) := by
    rw [cut, List.mapM_append, mapM_read_escape, wild]
    rfl
  have plain : .directories ∉ (pieces dir).map Component.exactly ++ [.pattern commentFiles] := by
    intro inside
    rcases List.mem_append.mp inside with inside | last
    · obtain ⟨piece, _, same⟩ := List.mem_map.mp inside
      exact Component.exactly_ne_directories piece same
    · cases List.mem_singleton.mp last
  have endsPlain : (escape dir ++ "/*.xqdoc".toList).getLast? ≠ some '/' := by
    rw [List.getLast?_append_of_ne_nil _ (by decide)]
    decide
  have absolute : (escape dir ++ "/*.xqdoc".toList).head? = some '/' ↔ dir.head? = some '/' :=
    (head?_escape_append dir).trans (or_iff_right nonempty)
  rw [parse_ok whole nonempty' read, collapse_eq_self plain, decide_eq_false endsPlain, decide_eq_decide.mpr absolute]

/-- The pattern for a directory is right whatever the directory is called. -/
theorem parse_directory (dir : Text) : ∃ g, parse (escape dir ++ "/*.xqdoc".toList) = .ok g ∧
    g.components.getLast? = some (.pattern commentFiles) := by
  by_cases empty : dir = []
  · subst empty
    exact ⟨_, rfl, rfl⟩
  · exact ⟨_, parse_directory_eq empty, List.getLast?_concat⟩

end DocComment.Glob
