import DocComment.Proofs.LineBreaks
import DocComment.Run

/-! What paths lead to. Where a path leads only depends on the directories of a tree, and the outputs
in one directory lie side by side, each at its own name. -/
namespace DocComment

/-- A name for an entry of a directory. -/
structure EntryName (name : Text) : Prop where
  nonempty : name ≠ []
  noSlash : '/' ∉ name
  notDot : name ≠ ['.']
  notDots : name ≠ ['.', '.']

instance (name : Text) : Decidable (EntryName name) :=
  decidable_of_iff (name ≠ [] ∧ '/' ∉ name ∧ name ≠ ['.'] ∧ name ≠ ['.', '.'])
    ⟨fun ⟨a, b, c, d⟩ => ⟨a, b, c, d⟩, fun h => ⟨h.nonempty, h.noSlash, h.notDot, h.notDots⟩⟩

namespace Path

theorem mem_stemOfName {name : Text} {c : Char} (h : c ∈ stemOfName name) : c ∈ name := by
  rw [stemOfName] at h
  split at h
  · exact h
  · have kept := List.mem_of_mem_drop (List.mem_reverse.mp h)
    exact List.mem_reverse.mp ((List.dropWhile_sublist _).mem kept)

theorem not_mem_of_mem_segments {p : Path} {segment : Text} (h : segment ∈ p.segments) :
    '/' ∉ segment :=
  Text.not_mem_of_mem_cut (List.mem_filter.mp h).1

theorem mem_segments_of_mem_components {p : Path} {name : Text}
    (h : Component.normal name ∈ p.components) : name ∈ p.segments := by
  have inside : Component.normal name ∈ p.segments.map Component.ofSegment := by
    rw [components] at h
    split at h
    · rcases List.mem_cons.mp h with root | rest
      · cases root
      · exact (List.mem_filter.mp rest).1
    · split at h
      · exact absurd h List.not_mem_nil
      · next parts =>
        rw [parts]
        rcases List.mem_cons.mp h with first | rest
        · exact first ▸ List.mem_cons_self
        · exact List.mem_cons_of_mem _ (List.mem_filter.mp rest).1
  obtain ⟨segment, member, same⟩ := List.mem_map.mp inside
  rw [Component.ofSegment] at same
  split at same
  · cases same
  · split at same
    · cases same
    · cases same
      exact member

theorem not_mem_stem (p : Path) : '/' ∉ p.stem := by
  rw [stem]
  split
  · next name last =>
    intro inside
    have member := mem_segments_of_mem_components (List.mem_of_getLast? last)
    exact not_mem_of_mem_segments member (mem_stemOfName inside)
  · decide

theorem entryName_output (p : Path) : EntryName (p.stem ++ ".xml".toList) := by
  have size : 4 ≤ (p.stem ++ ".xml".toList).length := by
    rw [List.length_append]
    exact Nat.le_add_left 4 _
  have other : ∀ name : Text, name.length < 4 → p.stem ++ ".xml".toList ≠ name := by
    rintro name small rfl
    omega
  refine ⟨other [] (by decide), ?_, other ['.'] (by decide), other ['.', '.'] (by decide)⟩
  exact fun inside => (List.mem_append.mp inside).elim (not_mem_stem p) (by decide)

/-- A path ends where a name can follow at once if nothing stands behind its last slash. -/
theorem endsOpen_iff {p : Path} {pieces : List Text} {last : Text} (absent : '/' ∉ last)
    (same : p.text = pieces.flatMap (· ++ ['/']) ++ last) :
    (p.text = [] || p.hasTrailingSlash) = true ↔ last = [] := by
  rw [hasTrailingSlash, same, Bool.or_eq_true, decide_eq_true_iff, decide_eq_true_iff]
  constructor
  · rintro (empty | slash)
    · exact (List.append_eq_nil_iff.mp empty).2
    · by_contra nonempty
      rw [List.getLast?_append_of_ne_nil _ nonempty] at slash
      exact absent (List.mem_of_getLast? slash)
  · rintro rfl
    rw [List.append_nil]
    rcases List.eq_nil_or_concat pieces with rfl | ⟨before, piece, rfl⟩
    · exact .inl rfl
    · exact .inr (by simp)

/-- A name is joined as a segment of its own. The empty name only adds a slash. -/
theorem segments_join (dir : Path) {name : Text} (noSlash : '/' ∉ name) :
    (dir.join name).segments = dir.segments ++ [name].filter fun segment => segment ≠ [] := by
  obtain ⟨pieces, last, absent, absentLast, same⟩ := Text.exists_pieces '/' dir.text
  have own : (Text.cut '/' name).filter (fun segment => segment ≠ []) = [name].filter fun segment => segment ≠ [] := by
    by_cases empty : name = []
    · subst empty
      rfl
    · rw [Text.cut_eq_singleton empty noSlash]
  rw [join, segments, segments]
  by_cases empty : last = []
  · rw [if_pos ((endsOpen_iff absentLast same).mpr empty), same, empty, List.append_nil,
      Text.cut_flatMap absent, List.filter_append, own,
      ← List.append_nil (pieces.flatMap _), Text.cut_flatMap absent, Text.cut_nil, List.append_nil]
  · have absent' : ∀ piece ∈ pieces ++ [last], '/' ∉ piece :=
      List.forall_mem_append.mpr ⟨absent, List.forall_mem_singleton.mpr absentLast⟩
    have whole : dir.text ++ '/' :: name = (pieces ++ [last]).flatMap (· ++ ['/']) ++ name := by
      simp [same]
    rw [if_neg (mt (endsOpen_iff absentLast same).mp empty), whole,
      Text.cut_flatMap absent', List.filter_append, own, same, Text.cut_flatMap_append absent empty absentLast]

theorem isAbsolute_join (dir : Path) {name : Text} (noSlash : '/' ∉ name) :
    (dir.join name).isAbsolute = dir.isAbsolute := by
  rw [join, isAbsolute, isAbsolute]
  by_cases empty : dir.text = []
  · have relative : name.head? ≠ some '/' := fun slash => noSlash (List.mem_of_head? slash)
    simp [empty, relative]
  · obtain ⟨c, cs, here⟩ := List.exists_cons_of_ne_nil empty
    split <;> simp [here]

theorem suffix_join (p : Path) (name : Text) : name <:+ (p.join name).text := by
  rw [join]
  split
  · exact List.suffix_append _ _
  · exact (List.suffix_cons '/' name).trans (List.suffix_append _ _)

theorem hasTrailingSlash_join (dir : Path) {name : Text} (nonempty : name ≠ []) (noSlash : '/' ∉ name) :
    (dir.join name).hasTrailingSlash = false := by
  obtain ⟨front, same⟩ := suffix_join dir name
  rw [hasTrailingSlash, ← same, List.getLast?_append_of_ne_nil _ nonempty, decide_eq_false_iff_not]
  exact fun slash => noSlash (List.mem_of_getLast? slash)

/-- Where a component leads to from a location. -/
def Component.descend (l : Location) : Component → Location
  | .root => []
  | .current => l
  | .parent => l.dropLast
  | .normal name => l ++ [name]

/-- Where a path leads to if it leads anywhere. -/
def target (workingDir : Location) (p : Path) : Location := p.components.foldl Component.descend workingDir

theorem target_congr {workingDir : Location} {p q : Path} (same : p.Same q) :
    p.target workingDir = q.target workingDir := by
  rw [target, same, target]

theorem descend_ofSegment (l : Location) (segment : Text) :
    Component.descend l (.ofSegment segment) = FileTree.descend l segment := by
  rw [Component.ofSegment, FileTree.descend]
  split
  · rfl
  · split <;> rfl

/-- A dot leads nowhere else. -/
theorem foldl_descend_filter (l : Location) (parts : List Component) :
    (parts.filter (· ≠ .current)).foldl Component.descend l = parts.foldl Component.descend l := by
  induction parts generalizing l with
  | nil => rfl
  | cons part parts ih =>
    by_cases dot : part = .current
    · subst dot
      exact ih l
    · rw [List.filter_cons_of_pos (by simpa using dot)]
      exact ih _

theorem target_eq (workingDir : Location) (p : Path) : p.target workingDir =
    p.segments.foldl FileTree.descend (if p.isAbsolute then [] else workingDir) := by
  have segments : ∀ l, (p.segments.map Component.ofSegment).foldl Component.descend l =
      p.segments.foldl FileTree.descend l := by
    intro l
    rw [List.foldl_map]
    simp only [descend_ofSegment]
  rw [target, components]
  split
  · rw [List.foldl_cons, foldl_descend_filter]
    exact segments []
  · rw [← segments]
    cases p.segments.map Component.ofSegment with
    | nil => rfl
    | cons first rest => exact foldl_descend_filter _ rest

end Path

namespace FileTree

theorem ok_of_bind {α β : Type} {x : Except FileError α} {f : α → Except FileError β} {b : β}
    (h : x.bind f = .ok b) : ∃ a, x = .ok a ∧ f a = .ok b := by
  cases x with
  | error e => cases h
  | ok a => exact ⟨a, rfl, h⟩

variable {t t' : FileTree} {l k : Location} {segments : List Text}

theorem ne_root (free : t.isDirectory l = false) : l ≠ [] := by
  rintro rfl
  cases free

theorem demandDirectory_ok_iff : t.demandDirectory l = .ok () ↔ t.isDirectory l = true := by
  rw [demandDirectory, isDirectory, decide_eq_true_iff]
  cases t.get? l with
  | none => exact ⟨nofun, nofun⟩
  | some e =>
    cases e with
    | file content => exact ⟨nofun, nofun⟩
    | directory => exact ⟨fun _ => rfl, fun _ => rfl⟩

theorem follow_append (t : FileTree) (l : Location) (first rest : List Text) :
    t.follow l (first ++ rest) = (t.follow l first).bind fun k => t.follow k rest := by
  induction first generalizing l with
  | nil => rfl
  | cons segment first ih =>
    rw [List.cons_append, follow, follow]
    cases t.demandDirectory l with
    | error e => rfl
    | ok _ =>
      cases demandShort segment with
      | error e => rfl
      | ok _ => exact ih (descend l segment)

theorem follow_cons_ok_iff {segment : Text} : t.follow l (segment :: segments) = .ok k ↔
    t.isDirectory l = true ∧ demandShort segment = .ok () ∧
      t.follow (descend l segment) segments = .ok k := by
  rw [follow]
  constructor
  · intro found
    obtain ⟨_, here, found⟩ := ok_of_bind found
    obtain ⟨_, short, found⟩ := ok_of_bind found
    exact ⟨demandDirectory_ok_iff.mp here, short, found⟩
  · rintro ⟨here, short, found⟩
    rw [demandDirectory_ok_iff.mpr here, short]
    exact found

/-- Where a path leads stays the same as long as no directory is lost. -/
structure KeepsDirectories (t t' : FileTree) : Prop where
  workingDir : t'.workingDir = t.workingDir
  isDirectory : ∀ l, t.isDirectory l = true → t'.isDirectory l = true

theorem follow_of_keeps (kept : KeepsDirectories t t') (found : t.follow l segments = .ok k) :
    t'.follow l segments = .ok k := by
  induction segments generalizing l with
  | nil => exact found
  | cons segment segments ih =>
    obtain ⟨here, short, rest⟩ := follow_cons_ok_iff.mp found
    exact follow_cons_ok_iff.mpr ⟨kept.isDirectory l here, short, ih rest⟩

theorem locate_ok_iff {p : Path} :
    t.locate p = .ok l ↔ p.text ≠ [] ∧ p.isTooLong = false ∧ t.follow (t.start p) p.segments = .ok l := by
  rw [locate]
  split
  · next empty => exact ⟨nofun, fun h => absurd empty h.1⟩
  · next nonempty =>
    split
    · next long => exact ⟨nofun, fun h => absurd long (by rw [h.2.1]; exact Bool.false_ne_true)⟩
    · next short => exact ⟨fun found => ⟨nonempty, Bool.eq_false_iff.mpr short, found⟩, fun h => h.2.2⟩

theorem locate_of_keeps {p : Path} (kept : KeepsDirectories t t') (found : t.locate p = .ok l) :
    t'.locate p = .ok l := by
  obtain ⟨nonempty, short, led⟩ := locate_ok_iff.mp found
  have start : t'.start p = t.start p := by rw [start, start, kept.workingDir]
  exact locate_ok_iff.mpr ⟨nonempty, short, start ▸ follow_of_keeps kept led⟩

theorem follow_ok_eq (led : t.follow l segments = .ok k) : k = segments.foldl descend l := by
  induction segments generalizing l with
  | nil => exact (Except.ok.inj led).symm
  | cons segment segments ih => exact ih (follow_cons_ok_iff.mp led).2.2

theorem locate_ok_eq {p : Path} (located : t.locate p = .ok l) : l = p.target t.workingDir := by
  rw [Path.target_eq]
  exact follow_ok_eq (locate_ok_iff.mp located).2.2

/-- An entry of a directory is found inside the directory, at its name. -/
theorem locate_join {dir : Path} {name : Text} (h : EntryName name)
    (found : t.locate (dir.join name) = .ok l) :
    ∃ home, t.follow (t.start dir) dir.segments = .ok home ∧ l = home ++ [name] := by
  obtain ⟨_, _, led⟩ := locate_ok_iff.mp found
  have origin : t.start (dir.join name) = t.start dir := by
    rw [start, start, Path.isAbsolute_join dir h.noSlash]
  have own : [name].filter (fun segment => segment ≠ []) = [name] :=
    List.filter_cons_of_pos (decide_eq_true h.nonempty)
  rw [origin, Path.segments_join dir h.noSlash, own, follow_append] at led
  obtain ⟨home, arrived, led⟩ := ok_of_bind led
  obtain ⟨_, _, last⟩ := follow_cons_ok_iff.mp led
  rw [descend, if_neg h.notDot, if_neg h.notDots] at last
  cases last
  exact ⟨home, arrived, rfl⟩

end FileTree

/-- Outputs are told apart by the stems of their inputs. -/
theorem Conversion.stem_eq_of_locate {t : FileTree} {dir p q : Path} {l : Location}
    (first : t.locate (outputOf dir p) = .ok l) (second : t.locate (outputOf dir q) = .ok l) :
    p.stem = q.stem := by
  obtain ⟨home, led, rfl⟩ := FileTree.locate_join (Path.entryName_output p) first
  obtain ⟨home', led', same⟩ := FileTree.locate_join (Path.entryName_output q) second
  cases led.symm.trans led'
  have names := List.singleton_inj.mp (List.append_cancel_left same)
  exact List.append_cancel_right names

end DocComment
