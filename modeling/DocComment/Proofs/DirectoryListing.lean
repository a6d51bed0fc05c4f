import DocComment.Proofs.DirectoryExpansion

/-! Directories as arguments. Whatever it is called, a directory stands for the files right in it whose names
end as those of comment files do, each of them once and by its own path. Only a directory whose path leaves
the pattern nowhere to go stands for nothing. -/
namespace DocComment

namespace Path

variable {dir : Path} {name : Text}

theorem segments_eq_pieces (dir : Text) : segments ⟨dir⟩ = (Glob.pieces dir).filter (· ≠ []) := by
  rw [segments, Text.filter_cut, Glob.pieces, Glob.body]
  split
  · next slash =>
    obtain ⟨dir, rfl⟩ := List.head?_eq_some_iff.mp slash
    rw [← Text.filter_cut, ← Text.filter_cut, Text.cut_sep]
    rfl
  · rfl

theorem nonempty_of_mem_segments {segment : Text} (member : segment ∈ dir.segments) : segment ≠ [] :=
  decide_eq_true_iff.mp (List.mem_filter.mp member).2

/-- The segments of a directory that the path of an entry has. -/
def shown (dir : Path) : List Text :=
  if dir.isAbsolute then dir.segments else dir.segments.dropWhile (· = ['.'])

theorem mem_segments_of_mem_shown {segment : Text} (member : segment ∈ dir.shown) : segment ∈ dir.segments := by
  rw [shown] at member
  split at member
  · exact member
  · exact (List.dropWhile_suffix _).subset member

/-- The path by which an entry of a directory comes up: with single slashes, and without the dots in front
that stay in the working directory. -/
def entry (dir : Path) (name : Text) : Path :=
  ⟨(if dir.isAbsolute then ['/'] else []) ++ (dir.shown.flatMap (· ++ ['/']) ++ name)⟩

theorem isAbsolute_entry (h : EntryName name) : (dir.entry name).isAbsolute = dir.isAbsolute := by
  cases absolute : dir.isAbsolute with
  | true =>
    rw [entry, absolute]
    rfl
  | false =>
    rw [entry, absolute]
    refine decide_eq_false fun slash => ?_
    cases parts : dir.shown with
    | nil =>
      rw [parts] at slash
      exact h.noSlash (List.mem_of_head? slash)
    | cons segment rest =>
      have member : segment ∈ dir.segments := mem_segments_of_mem_shown (parts ▸ List.mem_cons_self)
      obtain ⟨c, cs, rfl⟩ := List.exists_cons_of_ne_nil (nonempty_of_mem_segments member)
      rw [parts] at slash
      exact not_mem_of_mem_segments member (List.mem_of_head? (Option.some.inj slash ▸ rfl))

theorem segments_entry (h : EntryName name) : (dir.entry name).segments = dir.shown ++ [name] := by
  have absent : ∀ segment ∈ dir.shown, '/' ∉ segment := fun segment member =>
    not_mem_of_mem_segments (mem_segments_of_mem_shown member)
  have cut := Text.cut_flatMap_append absent h.nonempty h.noSlash
  have kept : (dir.shown ++ [name]).filter (· ≠ []) = dir.shown ++ [name] := by
    refine List.filter_eq_self.mpr fun segment member => decide_eq_true ?_
    rcases List.mem_append.mp member with member | member
    · exact nonempty_of_mem_segments (mem_segments_of_mem_shown member)
    · rw [List.mem_singleton.mp member]
      exact h.nonempty
  rw [segments, entry, ← kept, ← cut]
  split
  · rw [List.singleton_append, Text.cut_sep]
    rfl
  · rfl

end Path

namespace FileTree

variable {t : FileTree} {dir : Path} {home l : Location} {name : Text} {segments : List Text}

/-- All names in the tree are names for entries, and short enough. -/
def Named (t : FileTree) : Prop :=
  ∀ entry ∈ t.entries, ∀ name ∈ entry.1, EntryName name ∧ (String.ofList name).utf8ByteSize ≤ 255

instance (t : FileTree) : Decidable t.Named :=
  inferInstanceAs (Decidable (∀ entry ∈ t.entries, ∀ name ∈ entry.1, _ ∧ _))

theorem Named.of_mem {e : Entry} (named : t.Named) (entry : (home ++ [name], e) ∈ t.entries) :
    EntryName name ∧ (String.ofList name).utf8ByteSize ≤ 255 :=
  named _ entry name (List.mem_append_right home (List.mem_singleton_self name))

theorem Named.of_get? {e : Entry} (named : t.Named) (here : t.get? (home ++ [name]) = some e) :
    EntryName name ∧ (String.ofList name).utf8ByteSize ≤ 255 :=
  named.of_mem (mem_entries_of_get? (List.append_ne_nil_of_right_ne_nil home (List.cons_ne_nil name [])) here)

theorem follow_dropWhile_dots (led : t.follow l segments = .ok home) :
    t.follow l (segments.dropWhile (· = ['.'])) = .ok home := by
  induction segments with
  | nil => exact led
  | cons segment segments ih =>
    by_cases dot : segment = ['.']
    · subst dot
      exact ih (follow_cons_ok_iff.mp led).2.2
    · rwa [List.dropWhile_cons_of_neg (by simpa using dot)]

theorem find_directory (found : t.find dir = .ok (home, .directory)) :
    t.locate dir = .ok home ∧ t.isDirectory home = true := by
  rw [find] at found
  obtain ⟨l, located, found⟩ := ok_of_bind found
  split at found
  · cases found
  · next here =>
    cases found
    exact ⟨located, decide_eq_true here⟩
  · split at found <;> cases found

/-- An entry of a directory is found by its path, unless that is too long. -/
theorem locate_entry_iff (found : t.find dir = .ok (home, .directory)) (h : EntryName name)
    (short : (String.ofList name).utf8ByteSize ≤ 255) :
    t.locate (dir.entry name) = .ok l ↔ (dir.entry name).isTooLong = false ∧ l = home ++ [name] := by
  obtain ⟨located, here⟩ := find_directory found
  obtain ⟨_, _, led⟩ := locate_ok_iff.mp located
  have origin : t.start (dir.entry name) = t.start dir := by rw [start, start, Path.isAbsolute_entry h]
  have onwards : t.follow (t.start dir) dir.shown = .ok home := by
    rw [Path.shown]
    split
    · exact led
    · exact follow_dropWhile_dots led
  have last : t.follow home [name] = .ok (home ++ [name]) :=
    follow_cons_ok_iff.mpr ⟨here, if_pos short, congrArg Except.ok (descend_name h.notDot h.notDots home)⟩
  have nonempty : (dir.entry name).text ≠ [] := by simp [Path.entry, h.nonempty]
  rw [locate_ok_iff, and_iff_right nonempty, origin, Path.segments_entry h, follow_append, onwards, Except.bind, last,
    Except.ok.injEq, eq_comm (a := l)]

theorem find_entry_iff (found : t.find dir = .ok (home, .directory)) (h : EntryName name)
    (short : (String.ofList name).utf8ByteSize ≤ 255) {content : ByteArray} :
    t.find (dir.entry name) = .ok (l, .file content) ↔
      (dir.entry name).isTooLong = false ∧ l = home ++ [name] ∧ t.get? (home ++ [name]) = some (.file content) := by
  have endsPlain : (dir.entry name).hasTrailingSlash = false := by
    refine decide_eq_false fun slash => ?_
    rw [Path.entry, ← List.append_assoc, List.getLast?_append_of_ne_nil _ h.nonempty] at slash
    exact h.noSlash (List.mem_of_getLast? slash)
  rw [find_file_iff, locate_entry_iff found h short, and_assoc, endsPlain]
  constructor
  · rintro ⟨fits, rfl, here, _⟩
    exact ⟨fits, rfl, here⟩
  · rintro ⟨fits, rfl, here⟩
    exact ⟨fits, rfl, here, rfl⟩

end FileTree

namespace Glob

open FileTree

variable {t : FileTree} {dir name : Text} {home : Location} {p : Path}

/-- A relative path that begins with dots for the working directory and goes on with an empty piece, such as
`./` or `.//a`. -/
def Blind (dir : Text) : Prop := dir.head? ≠ some '/' ∧ ¬ LeadsOn (pieces dir)

instance (dir : Text) : Decidable (Blind dir) := inferInstanceAs (Decidable (_ ∧ _))

theorem fits_commentFiles_iff : fits commentFiles name = true ↔ ".xqdoc".toList <:+ name := by
  constructor
  · exact suffix_of_fits_commentFiles
  · intro suffix
    exact sequence_fits_iff.mpr ⟨_, suffix, fits_chars.mpr rfl⟩

theorem start_follows (t : FileTree) (sees : ¬ Blind dir) :
    Follows (Spot.start t (dir.head? = some '/')).path (pieces dir) := by
  by_cases slash : dir.head? = some '/'
  · rw [decide_eq_true slash]
    exact .inl ⟨List.cons_ne_nil _ _, .inl rfl⟩
  · rw [decide_eq_false slash]
    exact .inr ⟨rfl, not_not.mp fun stuck => sees ⟨slash, stuck⟩⟩

theorem child_start (t : FileTree) (sees : ¬ Blind dir) (name : Text) :
    child ((pieces dir).foldl Spot.enter (.start t (dir.head? = some '/'))).path name = Path.entry ⟨dir⟩ name := by
  have noSlash : ∀ piece ∈ pieces dir, '/' ∉ piece := fun piece => Text.not_mem_of_mem_splitOn
  have same : (child ((pieces dir).foldl Spot.enter (.start t (dir.head? = some '/'))).path name).text =
      (Path.entry ⟨dir⟩ name).text := by
    rw [Path.entry, Path.shown, Path.isAbsolute, Path.segments_eq_pieces]
    by_cases slash : dir.head? = some '/'
    · have away : (Spot.start t true).path.Away := ⟨List.cons_ne_nil _ _, .inl rfl⟩
      rw [decide_eq_true slash]
      exact text_child_away away noSlash name
    · have leadsOn : LeadsOn (pieces dir) := not_not.mp fun stuck => sees ⟨slash, stuck⟩
      have here : (Spot.start t false).path = ⟨['.']⟩ := rfl
      rw [decide_eq_false slash]
      exact text_child_here here leadsOn noSlash name
  exact congrArg Path.mk same

/-- The last component leads to what is right inside a place and has the ending. -/
theorem mem_expand_commentFiles {s spot : Spot} (directory : s.isDirectory = true) :
    spot ∈ expand t false [.pattern commentFiles] s ↔ ∃ name e, ".xqdoc".toList <:+ name ∧
      (s.location ++ [name], e) ∈ t.entries ∧ spot = s.inner [name] e := by
  have noDots : dottedNames commentFiles = [] := rfl
  have single : ∀ next : Spot, expand t false [] next = [next] := fun _ => rfl
  rw [expand, directory, noDots, List.flatMap_nil, List.nil_append, if_neg (by decide), List.mem_flatMap]
  constructor
  · rintro ⟨⟨names, e⟩, member, reached⟩
    obtain ⟨name, rfl, entry⟩ := mem_children_iff.mp member
    dsimp only at reached
    split at reached
    · next fit =>
      rw [single, List.mem_singleton] at reached
      exact ⟨name, e, fits_commentFiles_iff.mp fit, entry, reached⟩
    · cases reached
  · rintro ⟨name, e, suffix, entry, rfl⟩
    have fit : fits commentFiles (nameOf [name]) = true := fits_commentFiles_iff.mpr suffix
    refine ⟨([name], e), mem_children_iff.mpr ⟨name, rfl, entry⟩, ?_⟩
    dsimp only
    rw [if_pos fit, single]
    exact List.mem_singleton_self _

theorem location_start (t : FileTree) (dir : Text) :
    (Spot.start t (dir.head? = some '/')).location = t.start ⟨dir⟩ := by
  rw [Spot.start, FileTree.start, Path.isAbsolute]
  split <;> rfl

theorem isDirectory_start (t : FileTree) (dir : Text) :
    (Spot.start t (dir.head? = some '/')).isDirectory = t.isDirectory (t.start ⟨dir⟩) := by
  rw [Spot.start, FileTree.start, Path.isAbsolute]
  split <;> rfl

/-- Where the pattern for a directory leads to. -/
theorem mem_expand_directory {spot : Spot} (found : t.find ⟨dir⟩ = .ok (home, .directory)) :
    spot ∈ expand t false ((pieces dir).map Component.exactly ++ [.pattern commentFiles])
        (.start t (dir.head? = some '/')) ↔
      ¬ Blind dir ∧ ∃ name e, ".xqdoc".toList <:+ name ∧ (home ++ [name], e) ∈ t.entries ∧
        spot = ⟨Path.entry ⟨dir⟩ name, home ++ [name], e = .directory⟩ := by
  obtain ⟨located, here⟩ := find_directory found
  obtain ⟨_, _, led⟩ := locate_ok_iff.mp located
  have directory : (Spot.start t (dir.head? = some '/')).isDirectory = true :=
    (isDirectory_start t dir).trans (isDirectory_of_follow led here)
  by_cases blind : Blind dir
  · have start : (Spot.start t (dir.head? = some '/')).path = ⟨['.']⟩ := by
      rw [decide_eq_false blind.1]
      rfl
    rw [expand_stuck blind.2 start]
    exact iff_of_false List.not_mem_nil fun h => h.1 blind
  · have arrived : ((pieces dir).foldl Spot.enter (.start t (dir.head? = some '/'))).location = home := by
      rw [location_foldl_enter, location_start, ← Path.segments_eq_pieces]
      exact (follow_ok_eq led).symm
    have inner : ∀ name e, ((pieces dir).foldl Spot.enter (.start t (dir.head? = some '/'))).inner [name] e =
        ⟨Path.entry ⟨dir⟩ name, home ++ [name], e = .directory⟩ := by
      intro name e
      rw [← child_start t blind name, ← arrived]
      rfl
    rw [Path.segments_eq_pieces, ← location_start] at led
    rw [mem_expand_pieces (start_follows t blind) (fun _ => Text.not_mem_of_mem_splitOn) directory led here
      (List.cons_ne_nil _ []), mem_expand_commentFiles (isDirectory_foldl_enter directory _), arrived]
    simp only [inner]
    exact (and_iff_right blind).symm

/-- The files that the pattern for a directory leads to. -/
theorem mem_files_directory (found : t.find ⟨dir⟩ = .ok (home, .directory)) :
    p ∈ (Glob.paths ⟨dir.head? = some '/', (pieces dir).map Component.exactly ++ [.pattern commentFiles], false⟩
        t).filter t.isFile ↔
      ¬ Blind dir ∧ ∃ name e, ".xqdoc".toList <:+ name ∧ (home ++ [name], e) ∈ t.entries ∧
        p = Path.entry ⟨dir⟩ name ∧ t.isFile p = true := by
  rw [paths, List.mem_filter, List.mem_map]
  constructor
  · rintro ⟨⟨spot, member, rfl⟩, file⟩
    obtain ⟨sees, name, e, suffix, entry, rfl⟩ := (mem_expand_directory found).mp member
    exact ⟨sees, name, e, suffix, entry, rfl, file⟩
  · rintro ⟨sees, name, e, suffix, entry, rfl, file⟩
    exact ⟨⟨_, (mem_expand_directory found).mpr ⟨sees, name, e, suffix, entry, rfl⟩, rfl⟩, file⟩

end Glob

namespace Inputs

open FileTree

variable {t : FileTree} {dir name : Text} {home : Location} {p q : Path} {paths : List Path}

theorem contributed_directory (found : t.find ⟨dir⟩ = .ok (home, .directory)) : contributed t dir = (Glob.paths
    ⟨dir.head? = some '/', (Glob.pieces dir).map Glob.Component.exactly ++ [.pattern Glob.commentFiles], false⟩
      t).filter t.isFile := by
  have nonempty : dir ≠ [] := (locate_ok_iff.mp (find_directory found).1).1
  have noFile : t.isFile ⟨dir⟩ = false := by rw [isFile, found]
  have directory : t.isDir ⟨dir⟩ = true := by rw [isDir, found]
  have right : Patterns.read (Patterns.inDirectory dir) = .ok (Glob.paths _) :=
    congrArg (Except.map Glob.paths) (Glob.parse_directory_eq nonempty)
  rw [contributed, denoted, if_neg (Bool.eq_false_iff.mp noFile), if_pos directory, right]
  rfl

/-- A directory contributes the files right in it that have the ending. -/
theorem mem_contributed_directory (named : t.Named) (found : t.find ⟨dir⟩ = .ok (home, .directory)) :
    p ∈ contributed t dir ↔ ¬ Glob.Blind dir ∧ ∃ name content, ".xqdoc".toList <:+ name ∧
      t.get? (home ++ [name]) = some (.file content) ∧ p = Path.entry ⟨dir⟩ name ∧ p.isTooLong = false := by
  rw [contributed_directory found, Glob.mem_files_directory found]
  refine and_congr_right fun _ => exists_congr fun name => ?_
  constructor
  · rintro ⟨e, suffix, entry, rfl, file⟩
    obtain ⟨isName, short⟩ := named.of_mem entry
    obtain ⟨l, content, led⟩ := isFile_iff.mp file
    obtain ⟨fits, rfl, here⟩ := (find_entry_iff found isName short).mp led
    exact ⟨content, suffix, here, rfl, fits⟩
  · rintro ⟨content, suffix, here, rfl, fits⟩
    have entry := mem_entries_of_get? (List.append_ne_nil_of_right_ne_nil home (List.cons_ne_nil name [])) here
    obtain ⟨isName, short⟩ := named.of_get? here
    have led := (find_entry_iff found isName short).mpr ⟨fits, rfl, here⟩
    exact ⟨_, suffix, entry, rfl, isFile_iff.mpr ⟨_, content, led⟩⟩

/-- Paths that differ in more than their spelling all keep their places. -/
theorem mem_insertAll_iff (distinct : ∀ p ∈ paths, ∀ q ∈ paths, p.Same q → p = q) :
    p ∈ insertAll paths [] ↔ p ∈ paths := by
  constructor
  · intro member
    exact (mem_insertAll member).resolve_right List.not_mem_nil
  · intro member
    obtain ⟨q, inside, same⟩ := covers_insertAll.mpr (.inl (⟨p, member, rfl⟩ : Covers paths p))
    have other := (mem_insertAll inside).resolve_right List.not_mem_nil
    rwa [distinct p member q other same]

/-- No two paths that a directory contributes are spellings of one. -/
theorem eq_of_same_contributed (named : t.Named) (found : t.find ⟨dir⟩ = .ok (home, .directory)) :
    ∀ p ∈ contributed t dir, ∀ q ∈ contributed t dir, p.Same q → p = q := by
  intro p member q other same
  obtain ⟨_, name, content, _, here, rfl, fits⟩ := (mem_contributed_directory named found).mp member
  obtain ⟨_, name', content', _, here', rfl, fits'⟩ := (mem_contributed_directory named found).mp other
  obtain ⟨isName, short⟩ := named.of_get? here
  obtain ⟨isName', short'⟩ := named.of_get? here'
  have led := locate_ok_eq ((locate_entry_iff found isName short).mpr ⟨fits, rfl⟩)
  have led' := locate_ok_eq ((locate_entry_iff found isName' short').mpr ⟨fits', rfl⟩)
  have places : home ++ [name] = home ++ [name'] := led.trans ((Path.target_congr same).trans led'.symm)
  rw [List.singleton_inj.mp (List.append_cancel_left places)]

/-- A directory as an argument is never a wrong pattern, and it stands for the files right in it that have the
ending, each by its own path, as far as that is short enough to be followed. Only when its path is blind it
stands for nothing. -/
theorem directory_stands_for_files (named : t.Named) (found : t.find ⟨dir⟩ = .ok (home, .directory)) :
    ∃ inputs, resolve t [] [dir] = (if inputs = [] then [dir] else [], .ok inputs) ∧
      (∀ p, p ∈ inputs ↔ ¬ Glob.Blind dir ∧ ∃ name content, ".xqdoc".toList <:+ name ∧
        t.get? (home ++ [name]) = some (.file content) ∧ p = Path.entry ⟨dir⟩ name ∧ p.isTooLong = false) ∧
      ∀ p ∈ inputs, ∃ name content, p = Path.entry ⟨dir⟩ name ∧ t.find p = .ok (home ++ [name], .file content) := by
  have members := fun p => mem_insertAll_iff (p := p) (eq_of_same_contributed named found)
  have listed := fun p => (members p).trans (mem_contributed_directory named found)
  refine ⟨insertAll (contributed t dir) [], ?_, listed, ?_⟩
  · have right : ∀ arg ∈ [dir], ∀ cause, ¬ Invalid t arg cause := by
      intro arg member cause wrong
      rw [List.mem_singleton.mp member] at wrong
      have noDirectory := wrong.noDirectory
      rw [isDir, found] at noDirectory
      cases noDirectory
    have empty : insertAll (contributed t dir) [] = [] ↔ contributed t dir = [] := by
      simp only [List.eq_nil_iff_forall_not_mem, members]
    rw [resolve_eq_ok t [] right, List.flatMap_singleton, List.filter_singleton]
    simp [empty]
  · intro p member
    obtain ⟨_, name, content, _, here, rfl, fits⟩ := (listed p).mp member
    obtain ⟨isName, short⟩ := named.of_get? here
    exact ⟨name, content, rfl, (find_entry_iff found isName short).mpr ⟨fits, rfl, here⟩⟩

/-- Directories whose names read like patterns, next to one that these would match. -/
def patternNames : FileTree where
  entries := [(["w".toList], .directory), (["w".toList, "**".toList], .directory),
    (["w".toList, "**".toList, "[a".toList], .directory),
    (["w".toList, "**".toList, "[a".toList, ".xqdoc".toList], .file "(:~ :)".toUTF8),
    (["w".toList, "**".toList, "[a".toList, "b.txt".toList], .file "(:~ :)".toUTF8),
    (["w".toList, "**".toList, "[a".toList, "c.xqdoc".toList], .file "(:~ :)".toUTF8),
    (["w".toList, "**".toList, "[a".toList, "d.xqdoc".toList], .directory),
    (["w".toList, "a".toList], .directory), (["w".toList, "a".toList, "e.xqdoc".toList], .file "(:~ :)".toUTF8)]
  workingDir := ["w".toList]

theorem directory_stands_for_files_pattern_names :
    patternNames.Named ∧
    patternNames.find ⟨"./**//[a/".toList⟩ = .ok (["w".toList, "**".toList, "[a".toList], .directory) ∧
    ¬ Glob.Blind "./**//[a/".toList ∧
    resolve patternNames [] ["./**//[a/".toList] =
      ([], .ok [⟨"**/[a/.xqdoc".toList⟩, ⟨"**/[a/c.xqdoc".toList⟩]) ∧
    ∃ inputs, resolve patternNames [] ["./**//[a/".toList] =
        (if inputs = [] then ["./**//[a/".toList] else [], .ok inputs) ∧
      ∀ p ∈ inputs, ∃ name content, p = Path.entry ⟨"./**//[a/".toList⟩ name ∧
        patternNames.find p = .ok (["w".toList, "**".toList, "[a".toList] ++ [name], .file content) := by
  have named : patternNames.Named := by decide +kernel
  have found : patternNames.find ⟨"./**//[a/".toList⟩ =
      .ok (["w".toList, "**".toList, "[a".toList], .directory) := by decide +kernel
  obtain ⟨inputs, resolved, _, led⟩ := directory_stands_for_files named found
  exact ⟨named, found, by decide +kernel, by decide +kernel, inputs, resolved, led⟩

/-- A file in the working directory. -/
def oneFile : FileTree where
  entries := [(["w".toList], .directory), (["w".toList, "a.xqdoc".toList], .file "(:~ A :)".toUTF8)]
  workingDir := ["w".toList]

/-- The working directory stands for its files by a dot, but for nothing with a slash behind it. -/
theorem slash_behind_dot_hides_files :
    oneFile.find ⟨"./".toList⟩ = .ok (["w".toList], .directory) ∧
    oneFile.get? ["w".toList, "a.xqdoc".toList] = some (.file "(:~ A :)".toUTF8) ∧
    resolve oneFile [] [".".toList] = ([], .ok [⟨"a.xqdoc".toList⟩]) ∧
    resolve oneFile [] ["./".toList] = (["./".toList], .ok []) := by
  decide +kernel

end Inputs

end DocComment
