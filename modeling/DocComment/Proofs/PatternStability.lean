import DocComment.Proofs.DirectoryPatterns
import DocComment.Proofs.FileWrites
import DocComment.Proofs.Resolution

/-! Patterns and files that they do not stand for. A file only matters to a pattern where the last
component fits its name: it is never passed through on the way to something else. So a file whose name
does not fit can be written anywhere and the pattern stands for the same paths as before. With this,
patterns keep the laws that are relied on. -/
namespace DocComment

namespace FileTree

variable {t : FileTree} {l dir names : Location} {e : Entry} {entries : List (Location × Entry)}

theorem inside?_eq_some_iff : inside? dir l = some names ↔ names ≠ [] ∧ l = dir ++ names := by
  fun_induction inside? dir l with
  | case1 => exact ⟨nofun, fun h => absurd h.2.symm h.1⟩
  | case2 name rest =>
    rw [Option.some.injEq]
    constructor
    · rintro rfl
      exact ⟨List.cons_ne_nil _ _, rfl⟩
    · exact fun h => h.2
  | case3 => exact ⟨nofun, fun h => nomatch h.2⟩
  | case4 d ds rest ih =>
    rw [ih, List.cons_append, List.cons.injEq]
    exact and_congr_right fun _ => (and_iff_right rfl).symm
  | case5 d ds name rest different =>
    exact ⟨nofun, fun h => absurd (List.cons.inj h.2).1.symm different⟩

theorem ne_nil_of_mem_inside (member : (names, e) ∈ t.inside dir) : names ≠ [] := by
  obtain ⟨⟨k, x⟩, _, lies⟩ := List.mem_filterMap.mp member
  obtain ⟨rest, inside, same⟩ := Option.map_eq_some_iff.mp lies
  cases same
  exact (inside?_eq_some_iff.mp inside).1

variable {β : Type} {f : Location × Entry → List β}

theorem flatMap_place (free : entries.lookup l ≠ some .directory) (barren : ∀ content, f (l, .file content) = [])
    (content : ByteArray) : (place l (.file content) entries).flatMap f = entries.flatMap f := by
  induction entries with
  | nil => rw [place, List.flatMap_singleton, barren, List.flatMap_nil]
  | cons entry rest ih =>
    obtain ⟨k, x⟩ := entry
    rw [place]
    split
    · next here =>
      subst here
      rw [List.flatMap_cons, List.flatMap_cons, barren]
      cases x with
      | file old => rw [barren]
      | directory => exact absurd List.lookup_cons_self free
    · next elsewhere =>
      split
      · rw [List.flatMap_cons, barren, List.nil_append]
      · rw [List.lookup_cons, beq_eq_false_iff_ne.mpr elsewhere] at free
        rw [List.flatMap_cons, List.flatMap_cons, ih free]

/-- A file that a directory gives nothing for can be written anywhere. -/
theorem flatMap_inside_put (free : t.isDirectory l = false)
    (barren : ∀ names content, names ≠ [] → l = dir ++ names → f (names, .file content) = []) (content : ByteArray) :
    ((t.put l (.file content)).inside dir).flatMap f = (t.inside dir).flatMap f := by
  have absent : t.entries.lookup l ≠ some .directory := by
    have here := decide_eq_false_iff_not.mp free
    rwa [get?, if_neg (ne_root free)] at here
  rw [inside, inside, List.filterMap_eq_flatMap_toList, List.filterMap_eq_flatMap_toList, List.flatMap_assoc,
    List.flatMap_assoc]
  refine flatMap_place absent (fun content => ?_) content
  dsimp only
  cases lies : inside? dir l with
  | none => rfl
  | some names =>
    obtain ⟨nonempty, same⟩ := inside?_eq_some_iff.mp lies
    rw [Option.map_some, Option.toList_some, List.flatMap_singleton]
    exact barren names content nonempty same

theorem flatMap_children_put (free : t.isDirectory l = false)
    (barren : ∀ names content, names ≠ [] → l = dir ++ names → f (names, .file content) = []) (content : ByteArray) :
    ((t.put l (.file content)).children dir).flatMap f = (t.children dir).flatMap f := by
  rw [children, children, ← List.filterMap_eq_filter, List.filterMap_eq_flatMap_toList, List.flatMap_assoc,
    List.filterMap_eq_flatMap_toList, List.flatMap_assoc]
  refine flatMap_inside_put free (fun names content nonempty same => ?_) content
  dsimp only [Option.guard]
  split
  · rw [Option.toList_some, List.flatMap_singleton]
    exact barren names content nonempty same
  · rfl

end FileTree

namespace Glob

open FileTree

variable {t : FileTree} {l names : Location} {s : Spot} {component : Component} {rest components : List Component}
  {name : Text}

/-- A pattern whose last component a name does not fit. -/
def Misses (components : List Component) (name : Text) : Prop :=
  ∀ last ∈ components.getLast?, last.fits name = false

theorem Misses.of_cons (h : Misses (component :: rest) name) : Misses rest name := by
  intro last member
  refine h last ?_
  rw [List.getLast?_cons, Option.mem_def.mp member]
  rfl

theorem nameOf_append (nonempty : names ≠ []) (dir : Location) : nameOf (dir ++ names) = nameOf names := by
  rw [nameOf, nameOf, List.getLast?_append_of_ne_nil dir nonempty]

/-- Only a directory has something inside. -/
theorem expand_of_file (t : FileTree) (directoriesOnly : Bool) (nonempty : rest ≠ [])
    (file : s.isDirectory = false) : expand t directoriesOnly rest s = [] := by
  cases rest with
  | nil => contradiction
  | cons component rest => cases component <;> simp [expand, file]

/-- A component that fits the name is not the last. -/
theorem Misses.rest_ne_nil (h : Misses (component :: rest) name) (fits : component.fits name = true) :
    rest ≠ [] := by
  rintro rfl
  exact Bool.false_ne_true ((h component rfl).symm.trans fits)

/-- A new file only shows in a step to its own name. -/
theorem step?_put (free : t.isDirectory l = false) (content : ByteArray) (s : Spot) (name : Text) :
    s.step? (t.put l (.file content)) name = s.step? t name ∨
      nameOf l = name ∧ s.step? (t.put l (.file content)) name = some (s.inner [name] (.file content)) ∧
        ∀ next, s.step? t name = some next → next.isDirectory = false := by
  by_cases dotted : name = [] ∨ (name = ['.'] || name = ['.', '.']) = true
  · left
    rw [Spot.step?, Spot.step?]
    rcases dotted with rfl | dots
    · rfl
    · rw [if_pos dots, if_pos dots]
  obtain ⟨nonempty, plain⟩ := not_or.mp dotted
  rw [Spot.step?, Spot.step?, if_neg nonempty, if_neg plain, if_neg nonempty, if_neg plain,
    get?_put t (ne_root free)]
  by_cases here : s.location ++ [name] = l
  · right
    subst here
    rw [if_pos rfl]
    refine ⟨nameOf_append (List.cons_ne_nil _ _) _, rfl, fun next step => ?_⟩
    obtain ⟨e, found, rfl⟩ := Option.map_eq_some_iff.mp step
    refine decide_eq_false ?_
    rintro rfl
    exact Bool.false_ne_true (free.symm.trans (decide_eq_true found))
  · left
    rw [if_neg here]

/-- A file whose name does not fit can be written anywhere. -/
theorem expand_put (free : t.isDirectory l = false) (content : ByteArray) (directoriesOnly : Bool)
    (misses : Misses components (nameOf l)) (s : Spot) :
    expand (t.put l (.file content)) directoriesOnly components s = expand t directoriesOnly components s := by
  fun_induction expand t directoriesOnly components s with
  | case1 s skip => rw [expand, if_pos skip]
  | case2 s keep => rw [expand, if_neg keep]
  | case3 component rest s file => cases component <;> rw [expand, if_pos file]
  | case4 rest s directory name next step ih =>
    rw [expand, if_neg directory]
    rcases step?_put free content s name with same | ⟨rfl, put, file⟩
    · rw [same, step]
      exact ih misses.of_cons
    · have own := misses.rest_ne_nil (decide_eq_true rfl)
      rw [put, expand_of_file t _ own (file next step)]
      exact expand_of_file _ _ own rfl
  | case5 rest s directory name step =>
    rw [expand, if_neg directory]
    rcases step?_put free content s name with same | ⟨rfl, put, _⟩
    · rw [same, step]
    · have own := misses.rest_ne_nil (decide_eq_true rfl)
      rw [put]
      exact expand_of_file _ _ own rfl
  | case6 rest s directory tokens dotted inner =>
    simp only [expand, if_neg directory, dotted _ misses.of_cons, inner _ _ misses.of_cons]
    refine congrArg _ (flatMap_children_put free (fun names content nonempty same => ?_) content)
    rw [same, nameOf_append nonempty] at misses
    dsimp only
    split
    · next fits => exact expand_of_file t _ (misses.rest_ne_nil fits) rfl
    · rfl
  | case7 rest s directory inner =>
    cases rest with
    | nil =>
      rw [expand, if_neg directory]
      exact flatMap_inside_put free (fun names content _ _ => rfl) content
    | cons component rest =>
      have later := misses.of_cons
      simp only [expand, if_neg directory, inner _ _ later.of_cons]
      refine flatMap_inside_put free (fun names content nonempty same => ?_) content
      rw [same, nameOf_append nonempty] at later
      dsimp only
      split
      · next fits => exact expand_of_file t _ (later.rest_ne_nil fits) rfl
      · rfl

theorem suffix_child (dir : Path) (name : Text) : name <:+ (child dir name).text := by
  rw [child]
  split
  · exact List.suffix_rfl
  · exact Path.suffix_join dir name

theorem suffix_inner (s : Spot) (nonempty : names ≠ []) (e : Entry) : nameOf names <:+ (s.inner names e).path.text := by
  obtain ⟨before, name, rfl⟩ := (List.eq_nil_or_concat names).resolve_left nonempty
  rw [Spot.inner, List.concat_eq_append, List.foldl_append, nameOf_append (List.cons_ne_nil _ _)]
  exact suffix_child _ name

theorem fits_of_mem_dottedNames {tokens : List Token} (member : name ∈ dottedNames tokens) :
    fits tokens name = true := by
  rw [dottedNames] at member
  split at member
  · exact (List.mem_filter.mp member).2
  · cases member

theorem eq_of_mem_expand_nil {directoriesOnly : Bool} {spot : Spot} (found : spot ∈ expand t directoriesOnly [] s) :
    spot = s := by
  rw [expand] at found
  split at found
  · cases found
  · exact List.mem_singleton.mp found

/-- A component either is the last one, and then its own name is what the path ends in, or leaves the end
of the path to the components behind it. -/
theorem exists_fitting_name_behind {directoriesOnly : Bool} {tokens : List Token} {next spot : Spot}
    (last : (component :: rest).getLast? = some (.pattern tokens))
    (own : component = .pattern tokens → ∃ name, fits tokens name = true ∧ name <:+ next.path.text)
    (behind : rest.getLast? = some (.pattern tokens) → spot ∈ expand t directoriesOnly rest next →
      ∃ name, fits tokens name = true ∧ name <:+ spot.path.text)
    (reached : spot ∈ expand t directoriesOnly rest next) :
    ∃ name, fits tokens name = true ∧ name <:+ spot.path.text := by
  cases rest with
  | nil =>
    rw [eq_of_mem_expand_nil reached]
    exact own (Option.some.inj last)
  | cons following rest => exact behind last reached

/-- A path that a pattern stands for ends in a name that fits the last component. -/
theorem exists_fitting_name {directoriesOnly : Bool} {tokens : List Token} {spot : Spot}
    (last : components.getLast? = some (.pattern tokens)) (found : spot ∈ expand t directoriesOnly components s) :
    ∃ name, fits tokens name = true ∧ name <:+ spot.path.text := by
  fun_induction expand t directoriesOnly components s with
  | case1 s skip => cases found
  | case2 s keep => cases last
  | case3 component rest s file => cases found
  | case4 rest s directory name next step ih =>
    refine exists_fitting_name_behind last (fun same => ?_) ih found
    cases same
  | case5 rest s directory name step => cases found
  | case6 rest s directory own dotted inner =>
    rcases List.mem_append.mp found with found | found
    · obtain ⟨name, member, reached⟩ := List.mem_flatMap.mp found
      refine exists_fitting_name_behind last (fun same => ?_) (dotted name) reached
      cases same
      exact ⟨name, fits_of_mem_dottedNames member, Path.suffix_join s.path name⟩
    · obtain ⟨⟨names, e⟩, member, reached⟩ := List.mem_flatMap.mp found
      dsimp only at reached
      split at reached
      · next fit =>
        refine exists_fitting_name_behind last (fun same => ?_) (inner names e) reached
        cases same
        exact ⟨nameOf names, fit, suffix_inner s (ne_nil_of_mem_inside (List.mem_filter.mp member).1) e⟩
      · cases reached
  | case7 rest s directory inner =>
    obtain ⟨⟨names, e⟩, member, reached⟩ := List.mem_flatMap.mp found
    cases rest with
    | nil => cases last
    | cons component rest =>
      dsimp only at reached
      split at reached
      · next fit =>
        have last : (component :: rest).getLast? = some (.pattern tokens) := last
        refine exists_fitting_name_behind last (fun same => ?_) (fun behind => inner names e behind) reached
        cases same
        exact ⟨nameOf names, fit, suffix_inner s (ne_nil_of_mem_inside member) e⟩
      · cases reached

variable {p : Path} {ending : Text}

/-- The entry that a path leads to has a name that ends as the path does. -/
theorem suffix_nameOf_of_locate (noSlash : '/' ∉ ending) (long : 2 < ending.length) (ends : ending <:+ p.text)
    (located : t.locate p = .ok l) : ending <:+ nameOf l := by
  obtain ⟨pieces, last, absent, absentLast, same⟩ := Text.exists_pieces '/' p.text
  have inLast : ending <:+ last := Text.suffix_of_suffix_pieces noSlash (same ▸ ends)
  have nonempty : last ≠ [] := by
    rintro rfl
    simp [List.suffix_nil.mp inLast] at long
  have plain : ∀ name : Text, name.length ≤ 2 → last ≠ name := by
    rintro name short rfl
    exact absurd (inLast.length_le.trans short) (Nat.not_le.mpr long)
  have segments : p.segments = pieces.filter (fun segment => segment ≠ []) ++ [last] := by
    rw [Path.segments, same, Text.cut_flatMap_append absent nonempty absentLast, List.filter_append,
      List.filter_cons_of_pos (by simpa using nonempty), List.filter_nil]
  obtain ⟨_, _, led⟩ := locate_ok_iff.mp located
  rw [follow_ok_eq led, segments, List.foldl_concat, descend, if_neg (plain ['.'] (by decide)),
    if_neg (plain ['.', '.'] (by decide)), nameOf, List.getLast?_concat]
  exact inLast

theorem suffix_of_fits_commentFiles (h : fits commentFiles name = true) : ".xqdoc".toList <:+ name := by
  obtain ⟨rest, suffix, fit⟩ := sequence_fits_iff.mp h
  rwa [fits_chars.mp fit] at suffix

variable {g : Glob}

/-- The pattern for a directory leads to the names of comment files only. -/
theorem suffix_of_mem_expand {directoriesOnly : Bool} {spot : Spot}
    (last : components.getLast? = some (.pattern commentFiles)) (found : spot ∈ expand t directoriesOnly components s)
    (located : t.locate spot.path = .ok l) : ".xqdoc".toList <:+ nameOf l := by
  obtain ⟨name, fit, ends⟩ := exists_fitting_name last found
  exact suffix_nameOf_of_locate (by decide) (by decide) ((suffix_of_fits_commentFiles fit).trans ends) located

theorem suffix_of_mem_paths (last : g.components.getLast? = some (.pattern commentFiles)) (found : p ∈ g.paths t)
    (located : t.locate p = .ok l) : ".xqdoc".toList <:+ nameOf l := by
  obtain ⟨spot, member, rfl⟩ := List.mem_map.mp found
  exact suffix_of_mem_expand last member located

/-- What the pattern for a directory leads to does not change with a file that is called otherwise. -/
theorem paths_put (last : g.components.getLast? = some (.pattern commentFiles)) (free : t.isDirectory l = false)
    (other : ¬ ".xqdoc".toList <:+ nameOf l) (content : ByteArray) :
    g.paths (t.put l (.file content)) = g.paths t := by
  have misses : Misses g.components (nameOf l) := by
    intro component member
    cases last.symm.trans member
    exact Bool.eq_false_iff.mpr fun fit => other (suffix_of_fits_commentFiles fit)
  have start : Spot.start (t.put l (.file content)) g.isAbsolute = .start t g.isAbsolute := by
    rw [Spot.start, Spot.start, (WrittenAt.put free content).isDirectory]
    rfl
  rw [paths, paths, start, expand_put free content _ misses]

theorem parse_of_read {pattern : Text} {places : FileTree → List Path} (right : Patterns.read pattern = .ok places) :
    ∃ g : Glob, parse pattern = .ok g ∧ places = g.paths := by
  change (parse pattern).map paths = .ok places at right
  cases parsed : parse pattern with
  | error flaw =>
    rw [parsed] at right
    cases right
  | ok g =>
    rw [parsed] at right
    cases right
    exact ⟨g, rfl, rfl⟩

theorem parse_of_read_inDirectory {dir : Text} {places : FileTree → List Path}
    (right : Patterns.read (Patterns.inDirectory dir) = .ok places) :
    ∃ g : Glob, g.components.getLast? = some (.pattern commentFiles) ∧ places = g.paths := by
  obtain ⟨g, parsed, rfl⟩ := parse_of_read right
  obtain ⟨directory, parsed', last⟩ := parse_directory dir
  cases parsed.symm.trans parsed'
  exact ⟨g, last, rfl⟩

instance : Patterns.Lawful where
  directory_right dir := by
    obtain ⟨g, parsed, _⟩ := parse_directory dir
    exact ⟨g.paths, congrArg (Except.map paths) parsed⟩
  emptied right t := by
    obtain ⟨g, _, rfl⟩ := parse_of_read right
    exact g.paths_emptied t
  ending right found located := by
    obtain ⟨g, last, rfl⟩ := parse_of_read_inDirectory right
    exact suffix_of_mem_paths last found located
  other right free named content := by
    obtain ⟨g, last, rfl⟩ := parse_of_read_inDirectory right
    exact paths_put last free named content

end Glob
end DocComment
