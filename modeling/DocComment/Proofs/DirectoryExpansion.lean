import DocComment.Proofs.PatternStability

/-! Where the pattern for a directory leads. Each escaped piece of the directory's path leads to the entry of
that name and to no other, so the pattern follows the path. It only stops short where the path, behind dots
that stay in the working directory, goes on with a slash: the empty piece there leads nowhere. -/
namespace DocComment

namespace Path

variable {p : Path} {name : Text}

/-- The path leads to more than the working directory. -/
structure Away (p : Path) : Prop where
  nonempty : p.text ≠ []
  beyond : p.isAbsolute = true ∨ ∃ segment ∈ p.segments, segment ≠ ['.']

theorem Away.components_ne (h : Away p) : p.components ≠ [.current] := by
  intro same
  rw [components] at same
  split at same
  · cases same
  · next relative =>
    obtain ⟨segment, member, notDot⟩ := h.beyond.resolve_left relative
    have inside : Component.ofSegment segment ∈ p.segments.map Component.ofSegment := List.mem_map_of_mem member
    have other : Component.ofSegment segment ≠ .current := by
      rw [Component.ofSegment, if_neg notDot]
      split <;> simp
    split at same
    · cases same
    · next first rest parts =>
      obtain ⟨rfl, nothing⟩ := List.cons.inj same
      rw [parts] at inside
      have later := (List.mem_cons.mp inside).resolve_left other
      exact List.filter_eq_nil_iff.mp nothing _ later (decide_eq_true other)

theorem Away.join (h : Away p) (noSlash : '/' ∉ name) : Away (p.join name) where
  nonempty := by
    rw [Path.join]
    split <;> simp [h.nonempty]
  beyond := by
    rw [isAbsolute_join p noSlash, segments_join p noSlash]
    refine h.beyond.imp_right ?_
    rintro ⟨segment, member, notDot⟩
    exact ⟨segment, List.mem_append_left _ member, notDot⟩

theorem away_of_name (nonempty : name ≠ []) (noSlash : '/' ∉ name) (notDot : name ≠ ['.']) : Away ⟨name⟩ where
  nonempty := nonempty
  beyond := by
    refine .inr ⟨name, ?_, notDot⟩
    rw [segments, Text.cut_eq_singleton nonempty noSlash]
    exact List.mem_filter.mpr ⟨List.mem_singleton_self name, decide_eq_true nonempty⟩

/-- What is joined stands behind a slash. -/
theorem text_join (p : Path) (name : Text) : (p.join name).text = (p.join []).text ++ name := by
  rw [join, join]
  split
  · rw [List.append_nil]
  · rw [List.append_assoc]
    rfl

theorem text_join_empty (endsPlain : p.hasTrailingSlash = false) (nonempty : p.text ≠ []) :
    (p.join []).text = p.text ++ ['/'] := by
  simp [join, endsPlain, nonempty]

theorem join_empty_join_empty (p : Path) : (p.join []).join [] = p.join [] := by
  have ends : ((p.join []).text = [] || (p.join []).hasTrailingSlash) = true := by
    rw [join]
    split
    · next ends => rwa [List.append_nil]
    · simp [hasTrailingSlash]
  rw [join, if_pos ends, List.append_nil]

end Path

namespace FileTree

variable {t : FileTree} {l dir home names : Location} {e : Entry} {name : Text} {segments : List Text}

theorem mem_children_iff :
    (names, e) ∈ t.children dir ↔ ∃ name, names = [name] ∧ (dir ++ [name], e) ∈ t.entries := by
  rw [children, List.mem_filter, decide_eq_true_iff, List.length_eq_one_iff]
  constructor
  · rintro ⟨member, name, rfl⟩
    obtain ⟨⟨l, x⟩, here, lies⟩ := List.mem_filterMap.mp member
    obtain ⟨rest, inside, same⟩ := Option.map_eq_some_iff.mp lies
    cases same
    obtain ⟨_, rfl⟩ := inside?_eq_some_iff.mp inside
    exact ⟨name, rfl, here⟩
  · rintro ⟨name, rfl, here⟩
    refine ⟨List.mem_filterMap.mpr ⟨_, here, ?_⟩, name, rfl⟩
    rw [Option.map_eq_some_iff]
    exact ⟨[name], inside?_eq_some_iff.mpr ⟨List.cons_ne_nil name [], rfl⟩, rfl⟩

theorem mem_entries_of_get? (nonempty : l ≠ []) (found : t.get? l = some e) :
    (l, e) ∈ t.entries := by
  rw [get?, if_neg nonempty] at found
  obtain ⟨before, after, parts, _⟩ := List.lookup_eq_some_iff.mp found
  rw [parts]
  exact List.mem_append_right before List.mem_cons_self

theorem get?_of_isDirectory (here : t.isDirectory l = true) : t.get? l = some .directory :=
  decide_eq_true_iff.mp here

theorem descend_name (notDot : name ≠ ['.']) (notDots : name ≠ ['.', '.']) (l : Location) :
    descend l name = l ++ [name] := by
  rw [descend, if_neg notDot, if_neg notDots]

theorem isDirectory_of_follow (led : t.follow l segments = .ok home)
    (here : t.isDirectory home = true) : t.isDirectory l = true := by
  cases segments with
  | nil =>
    cases led
    exact here
  | cons segment segments => exact (follow_cons_ok_iff.mp led).1

end FileTree

namespace Glob

open FileTree

variable {t : FileTree} {s spot : Spot} {rest : List Component} {piece name : Text} {pieces : List Text}
  {directoriesOnly : Bool} {home : Location}

theorem Token.exactly_ne_sequence (c : Char) : exactly c ≠ .anySequence := by
  rw [exactly]
  split <;> simp

theorem Token.admits_exactly (c d : Char) : (exactly c).admits d = decide (d = c) := by
  rw [exactly]
  split
  · simp only [admits, CharRange.contains, List.any_cons, List.any_nil, Bool.or_false]
    rw [Bool.eq_iff_iff, Bool.and_eq_true, decide_eq_true_iff, decide_eq_true_iff, decide_eq_true_iff]
    constructor
    · rintro ⟨least, most⟩
      exact Char.le_antisymm most least
    · rintro rfl
      exact ⟨Char.le_refl d, Char.le_refl d⟩
  · rfl

theorem fits_exactly : fits (piece.map Token.exactly) name = true ↔ name = piece := by
  induction piece generalizing name with
  | nil => simp
  | cons c piece ih =>
    have single := Token.exactly_ne_sequence c
    cases name with
    | nil => simp [token_fits_nil single]
    | cons d name => simp [token_fits_cons single, Token.admits_exactly, ih]

theorem literal?_exactly (plain : ∀ c ∈ piece, c ∉ ['?', '*', '[', ']']) :
    literal? (piece.map Token.exactly) = some piece := by
  induction piece with
  | nil => rfl
  | cons c piece ih =>
    obtain ⟨first, later⟩ := List.forall_mem_cons.mp plain
    rw [List.map_cons, Token.exactly, if_neg first, literal?, ih later]
    rfl

theorem literal?_exactly_special (special : ∃ c ∈ piece, c ∈ ['?', '*', '[', ']']) :
    literal? (piece.map Token.exactly) = none := by
  obtain ⟨c, member, special⟩ := special
  induction piece with
  | nil => cases member
  | cons d piece ih =>
    rw [List.map_cons, Token.exactly]
    split
    · rfl
    · next plain =>
      rcases List.mem_cons.mp member with rfl | member
      · exact absurd special plain
      · rw [literal?, ih member]
        rfl

/-- An escaped piece is a name as it stands, or else a pattern with a class for one of its characters. -/
theorem Component.exactly_cases (piece : Text) : exactly piece = .literal piece ∨
    exactly piece = .pattern (piece.map Token.exactly) ∧ ∃ c ∈ piece, c ∈ ['?', '*', '[', ']'] := by
  by_cases special : ∃ c ∈ piece, c ∈ ['?', '*', '[', ']']
  · right
    rw [exactly, ofTokens, literal?_exactly_special special]
    exact ⟨if_neg (map_exactly_ne_directories piece), special⟩
  · left
    have plain : ∀ c ∈ piece, c ∉ ['?', '*', '[', ']'] := fun c member inside => special ⟨c, member, inside⟩
    rw [exactly, ofTokens, literal?_exactly plain]

/-- A character that is escaped is no dot. -/
theorem noDots_of_special (special : ∃ c ∈ piece, c ∈ ['?', '*', '[', ']']) :
    piece ≠ [] ∧ piece ≠ ['.'] ∧ piece ≠ ['.', '.'] := by
  obtain ⟨c, member, special⟩ := special
  have noDot : c ≠ '.' := by
    rintro rfl
    exact absurd special (by decide)
  refine ⟨List.ne_nil_of_mem member, ?_, ?_⟩
  · rintro rfl
    exact noDot (List.mem_singleton.mp member)
  · rintro rfl
    simp [noDot] at member

theorem dottedNames_exactly (special : ∃ c ∈ piece, c ∈ ['?', '*', '[', ']']) :
    dottedNames (piece.map Token.exactly) = [] := by
  refine List.eq_nil_iff_forall_not_mem.mpr fun name member => ?_
  cases fits_exactly.mp (fits_of_mem_dottedNames member)
  obtain ⟨_, notDot, notDots⟩ := noDots_of_special special
  rw [dottedNames] at member
  split at member
  · have dots := (List.mem_filter.mp member).1
    simp only [List.mem_cons, List.not_mem_nil, or_false] at dots
    exact dots.elim notDots notDot
  · cases member

/-- The place behind a piece of a directory's path. -/
def Spot.enter (s : Spot) (piece : Text) : Spot where
  path := if piece = [] then s.path.join [] else child s.path piece
  location := if piece = [] then s.location else descend s.location piece
  isDirectory := true

theorem enter_empty (directory : s.isDirectory = true) : s.enter [] = { s with path := s.path.join [] } := by
  rw [Spot.enter, if_pos rfl, if_pos rfl, directory]

theorem enter_name (nonempty : piece ≠ []) (notDot : piece ≠ ['.']) (notDots : piece ≠ ['.', '.']) :
    s.enter piece = s.inner [piece] .directory := by
  rw [Spot.enter, if_neg nonempty, if_neg nonempty, descend_name notDot notDots]
  rfl

/-- A name that leads to a directory, or nowhere else, is followed. -/
theorem step?_eq_enter (directory : s.isDirectory = true) (free : piece = [] → s.path.components ≠ [.current])
    (leads : piece ≠ [] → t.isDirectory (descend s.location piece) = true) :
    s.step? t piece = some (s.enter piece) := by
  rw [Spot.step?]
  by_cases empty : piece = []
  · subst empty
    rw [if_pos rfl, if_neg (free rfl), enter_empty directory]
  rw [if_neg empty]
  by_cases dots : (piece = ['.'] || piece = ['.', '.']) = true
  · rw [if_pos dots, Spot.enter, if_neg empty, if_neg empty]
    rfl
  · have here := get?_of_isDirectory (leads empty)
    rw [if_neg dots]
    rw [Bool.or_eq_true, decide_eq_true_iff, decide_eq_true_iff, not_or] at dots
    rw [descend_name dots.1 dots.2] at here
    rw [here, enter_name empty dots.1 dots.2]
    rfl

/-- A piece that leads to a directory leads there and nowhere else. The empty piece leads nowhere from the
working directory. -/
theorem mem_expand_exactly (directory : s.isDirectory = true)
    (free : piece = [] → s.path.components ≠ [.current])
    (leads : piece ≠ [] → t.isDirectory (descend s.location piece) = true) (more : rest ≠ []) :
    spot ∈ expand t directoriesOnly (Component.exactly piece :: rest) s ↔
      spot ∈ expand t directoriesOnly rest (s.enter piece) := by
  rcases Component.exactly_cases piece with plain | ⟨pattern, special⟩
  · have step := step?_eq_enter directory free leads
    rw [plain, expand, directory]
    simp only [step]
    rfl
  · obtain ⟨nonempty, notDot, notDots⟩ := noDots_of_special special
    have entered := enter_name (s := s) nonempty notDot notDots
    have here := get?_of_isDirectory (leads nonempty)
    rw [descend_name notDot notDots] at here
    -- A listing may name an entry more than once, so the two lists only agree in their members.
    rw [pattern, expand, directory, dottedNames_exactly special, List.flatMap_nil, List.nil_append]
    rw [if_neg (by decide), List.mem_flatMap]
    constructor
    · rintro ⟨⟨names, e⟩, member, reached⟩
      obtain ⟨name, rfl, _⟩ := mem_children_iff.mp member
      dsimp only at reached
      split at reached
      · next fit =>
        cases fits_exactly.mp fit
        cases e with
        | file content =>
          rw [expand_of_file t directoriesOnly more rfl] at reached
          cases reached
        | directory => rwa [entered]
      · cases reached
    · intro reached
      have entry := mem_entries_of_get? (List.append_ne_nil_of_right_ne_nil _ (List.cons_ne_nil piece [])) here
      have fit : fits (piece.map Token.exactly) (nameOf [piece]) = true := fits_exactly.mpr rfl
      refine ⟨([piece], .directory), mem_children_iff.mpr ⟨piece, rfl, entry⟩, ?_⟩
      dsimp only
      rwa [if_pos fit, ← entered]

/-- In front of its first piece that is not a dot, the path has none that is empty. -/
def LeadsOn (pieces : List Text) : Prop := (pieces.dropWhile (· = ['.'])).head? ≠ some []

instance (pieces : List Text) : Decidable (LeadsOn pieces) := inferInstanceAs (Decidable (_ ≠ _))

/-- Pieces are followed from the working directory if they lead on from it, and always from elsewhere. -/
def Follows (p : Path) (pieces : List Text) : Prop := p.Away ∨ p = ⟨['.']⟩ ∧ LeadsOn pieces

theorem child_of_away {p : Path} (away : p.Away) (name : Text) : child p name = p.join name :=
  if_neg away.components_ne

theorem child_here (name : Text) : child ⟨['.']⟩ name = ⟨name⟩ := if_pos (by decide)

theorem path_enter (away : s.path.Away) (piece : Text) : (s.enter piece).path = s.path.join piece := by
  rw [Spot.enter]
  split
  · next empty => rw [empty]
  · exact child_of_away away piece

theorem path_enter_here (here : s.path = ⟨['.']⟩) (nonempty : piece ≠ []) : (s.enter piece).path = ⟨piece⟩ := by
  rw [Spot.enter, if_neg nonempty, here, child_here]

theorem LeadsOn.nonempty (h : LeadsOn (piece :: pieces)) : piece ≠ [] := by
  rintro rfl
  exact h rfl

theorem Follows.enter (h : Follows s.path (piece :: pieces)) (noSlash : '/' ∉ piece) :
    Follows (s.enter piece).path pieces := by
  rcases h with away | ⟨here, leadsOn⟩
  · rw [path_enter away]
    exact .inl (away.join noSlash)
  · rw [path_enter_here here leadsOn.nonempty]
    by_cases dot : piece = ['.']
    · subst dot
      exact .inr ⟨rfl, leadsOn⟩
    · exact .inl (Path.away_of_name leadsOn.nonempty noSlash dot)

theorem Follows.free (h : Follows s.path (piece :: pieces)) (empty : piece = []) :
    s.path.components ≠ [.current] := by
  rcases h with away | ⟨_, leadsOn⟩
  · exact away.components_ne
  · exact absurd empty leadsOn.nonempty

theorem location_enter (s : Spot) (piece : Text) :
    (s.enter piece).location = ([piece].filter (· ≠ [])).foldl descend s.location := by
  rw [Spot.enter]
  by_cases empty : piece = []
  · simp [empty]
  · simp [empty]

/-- The pattern for a directory follows the directory's path. -/
theorem mem_expand_pieces (follows : Follows s.path pieces) (noSlash : ∀ piece ∈ pieces, '/' ∉ piece)
    (directory : s.isDirectory = true) (led : t.follow s.location (pieces.filter (· ≠ [])) = .ok home)
    (here : t.isDirectory home = true) (more : rest ≠ []) :
    spot ∈ expand t directoriesOnly (pieces.map Component.exactly ++ rest) s ↔
      spot ∈ expand t directoriesOnly rest (pieces.foldl Spot.enter s) := by
  induction pieces generalizing s with
  | nil => exact Iff.rfl
  | cons piece pieces ih =>
    obtain ⟨first, later⟩ := List.forall_mem_cons.mp noSlash
    have parts : (piece :: pieces).filter (· ≠ []) = [piece].filter (· ≠ []) ++ pieces.filter (· ≠ []) :=
      List.filter_append [piece] pieces
    rw [parts, follow_append] at led
    obtain ⟨next, step, led⟩ := ok_of_bind led
    have arrived : (s.enter piece).location = next := (location_enter s piece).trans (follow_ok_eq step).symm
    have leads : piece ≠ [] → t.isDirectory (descend s.location piece) = true := by
      intro nonempty
      have same : descend s.location piece = next := by
        rw [← arrived, Spot.enter]
        exact (if_neg nonempty).symm
      rw [same]
      exact isDirectory_of_follow led here
    have behind : pieces.map Component.exactly ++ rest ≠ [] := List.append_ne_nil_of_right_ne_nil _ more
    rw [List.map_cons, List.cons_append, mem_expand_exactly directory follows.free leads behind, List.foldl_cons]
    rw [← arrived] at led
    exact ih (follows.enter first) later rfl led

/-- From the working directory, the pattern leads nowhere where the path does not lead on. -/
theorem expand_stuck (stuck : ¬ LeadsOn pieces) (here : s.path = ⟨['.']⟩) :
    expand t directoriesOnly (pieces.map Component.exactly ++ rest) s = [] := by
  induction pieces generalizing s with
  | nil => exact absurd nofun stuck
  | cons piece pieces ih =>
    cases directory : s.isDirectory with
    | false => exact expand_of_file t directoriesOnly (List.cons_ne_nil _ _) directory
    | true =>
      rw [List.map_cons, List.cons_append]
      by_cases empty : piece = []
      · subst empty
        have literal : Component.exactly [] = .literal [] := rfl
        have stuck : s.step? t [] = none := by
          rw [Spot.step?, if_pos rfl, if_pos (by rw [here]; decide)]
        rw [literal, expand, directory]
        simp only [stuck]
        rfl
      · by_cases dot : piece = ['.']
        · subst dot
          have literal : Component.exactly ['.'] = .literal ['.'] := rfl
          have step : s.step? t ['.'] = some (s.enter ['.']) := by
            rw [Spot.step?, if_neg empty, if_pos (by decide), Spot.enter, if_neg empty, if_neg empty]
            rfl
          rw [literal, expand, directory]
          simp only [step]
          exact ih stuck (path_enter_here here empty)
        · have leadsOn : LeadsOn (piece :: pieces) := by
            rw [LeadsOn, List.dropWhile_cons_of_neg (by simpa using dot)]
            exact fun first => empty (Option.some.inj first)
          exact absurd leadsOn stuck

theorem isDirectory_foldl_enter (directory : s.isDirectory = true) (pieces : List Text) :
    (pieces.foldl Spot.enter s).isDirectory = true := by
  induction pieces generalizing s with
  | nil => exact directory
  | cons piece pieces ih => exact ih rfl

theorem location_foldl_enter (s : Spot) (pieces : List Text) :
    (pieces.foldl Spot.enter s).location = (pieces.filter (· ≠ [])).foldl descend s.location := by
  induction pieces generalizing s with
  | nil => rfl
  | cons piece pieces ih =>
    have parts : (piece :: pieces).filter (· ≠ []) = [piece].filter (· ≠ []) ++ pieces.filter (· ≠ []) :=
      List.filter_append [piece] pieces
    rw [List.foldl_cons, ih, location_enter, parts, List.foldl_append]

/-- The path of an entry has a single slash behind each piece. -/
theorem text_child_away (away : s.path.Away) (noSlash : ∀ piece ∈ pieces, '/' ∉ piece) (name : Text) :
    (child (pieces.foldl Spot.enter s).path name).text =
      (s.path.join []).text ++ ((pieces.filter (· ≠ [])).flatMap (· ++ ['/']) ++ name) := by
  induction pieces generalizing s with
  | nil => exact (congrArg Path.text (child_of_away away name)).trans (Path.text_join s.path name)
  | cons piece pieces ih =>
    obtain ⟨first, later⟩ := List.forall_mem_cons.mp noSlash
    have path := path_enter away piece
    have onwards := away.join first
    rw [List.foldl_cons, ih (path ▸ onwards) later, path]
    by_cases empty : piece = []
    · subst empty
      rw [Path.join_empty_join_empty]
      rfl
    · have endsPlain := Path.hasTrailingSlash_join s.path empty first
      rw [Path.text_join_empty endsPlain onwards.nonempty, Path.text_join,
        List.filter_cons_of_pos (by simpa using empty), List.flatMap_cons]
      simp

/-- Dots in front of the path of an entry are left out. -/
theorem text_child_here (here : s.path = ⟨['.']⟩) (leadsOn : LeadsOn pieces) (noSlash : ∀ piece ∈ pieces, '/' ∉ piece)
    (name : Text) : (child (pieces.foldl Spot.enter s).path name).text =
      ((pieces.filter (· ≠ [])).dropWhile (· = ['.'])).flatMap (· ++ ['/']) ++ name := by
  induction pieces generalizing s with
  | nil => exact (congrArg Path.text ((congrArg (child · name) here).trans (child_here name)))
  | cons piece pieces ih =>
    obtain ⟨first, later⟩ := List.forall_mem_cons.mp noSlash
    have nonempty := leadsOn.nonempty
    have path := path_enter_here here nonempty
    rw [List.foldl_cons, List.filter_cons_of_pos (by simpa using nonempty)]
    by_cases dot : piece = ['.']
    · subst dot
      rw [ih path leadsOn later]
      rfl
    · have away := Path.away_of_name nonempty first dot
      have endsPlain : Path.hasTrailingSlash ⟨piece⟩ = false :=
        decide_eq_false fun slash => first (List.mem_of_getLast? slash)
      rw [text_child_away (path ▸ away) later, path, Path.text_join_empty endsPlain nonempty,
        List.dropWhile_cons_of_neg (by simpa using dot), List.flatMap_cons]
      simp only [List.append_assoc]

end Glob
end DocComment
