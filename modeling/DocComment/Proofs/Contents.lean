import DocComment.Glob.Expand

/-! Trees without the contents of their files. Making directories and going after a pattern come to the
same in a tree and in what is left of it when every file is emptied, so neither looks into a file. -/
namespace DocComment

def Entry.emptied : Entry → Entry
  | .file _ => .file .empty
  | .directory => .directory

theorem Entry.emptied_eq_directory_iff {e : Entry} : e.emptied = .directory ↔ e = .directory := by
  cases e with
  | file content => simp [emptied]
  | directory => exact Iff.rfl

namespace FileTree

/-- The tree with all files empty. -/
def emptied (t : FileTree) : FileTree := { t with entries := t.entries.map fun (l, e) => (l, e.emptied) }

variable {t : FileTree}

theorem get?_emptied (t : FileTree) (l : Location) : t.emptied.get? l = (t.get? l).map Entry.emptied := by
  rw [get?, get?]
  split
  · rfl
  · obtain ⟨entries, _⟩ := t
    induction entries with
    | nil => rfl
    | cons entry entries ih =>
      obtain ⟨k, e⟩ := entry
      simp only [emptied, List.map_cons, List.lookup_cons] at ih ⊢
      cases l == k with
      | true => rfl
      | false => exact ih

theorem isDirectory_emptied (t : FileTree) (l : Location) : t.emptied.isDirectory l = t.isDirectory l := by
  rw [isDirectory, isDirectory, get?_emptied]
  cases t.get? l with
  | none => rfl
  | some e => simp [Entry.emptied_eq_directory_iff]

theorem demandDirectory_emptied (t : FileTree) (l : Location) :
    t.emptied.demandDirectory l = t.demandDirectory l := by
  rw [demandDirectory, demandDirectory, get?_emptied]
  cases t.get? l with
  | none => rfl
  | some e => cases e <;> rfl

theorem follow_emptied (t : FileTree) (l : Location) (segments : List Text) :
    t.emptied.follow l segments = t.follow l segments := by
  induction segments generalizing l with
  | nil => rfl
  | cons segment segments ih =>
    rw [follow, follow, demandDirectory_emptied]
    simp only [ih]

theorem find_emptied (t : FileTree) (p : Path) :
    t.emptied.find p = (t.find p).map fun (l, e) => (l, e.emptied) := by
  have located : t.emptied.locate p = t.locate p := by
    rw [locate, locate, follow_emptied]
    rfl
  rw [find, find, located]
  cases t.locate p with
  | error e => rfl
  | ok l =>
    simp only [bind, Except.bind, get?_emptied]
    cases t.get? l with
    | none => rfl
    | some e =>
      cases e with
      | directory => rfl
      | file content =>
        simp only [Option.map_some, Entry.emptied]
        split <;> rfl

theorem isFile_emptied (t : FileTree) (p : Path) : t.emptied.isFile p = t.isFile p := by
  rw [isFile, isFile, find_emptied]
  cases t.find p with
  | error e => rfl
  | ok found => obtain ⟨l, _ | _⟩ := found <;> rfl

theorem isDir_emptied (t : FileTree) (p : Path) : t.emptied.isDir p = t.isDir p := by
  rw [isDir, isDir, find_emptied]
  cases t.find p with
  | error e => rfl
  | ok found => obtain ⟨l, _ | _⟩ := found <;> rfl

theorem emptied_put (t : FileTree) (l : Location) (e : Entry) :
    (t.put l e).emptied = t.emptied.put l e.emptied := by
  obtain ⟨entries, workingDir⟩ := t
  rw [put, put, emptied, emptied, mk.injEq]
  refine ⟨?_, rfl⟩
  induction entries with
  | nil => rfl
  | cons entry entries ih =>
    obtain ⟨k, x⟩ := entry
    simp only [place, List.map_cons]
    split
    · rfl
    · split
      · rfl
      · exact congrArg _ ih

theorem makeDir_emptied (t : FileTree) (l : Location) (segments : List Text) :
    t.emptied.makeDir l segments = (t.makeDir l segments).map emptied := by
  rw [makeDir, makeDir, follow_emptied]
  cases t.follow l segments.dropLast with
  | error e => rfl
  | ok parent =>
    simp only [bind, Except.bind]
    cases segments.getLast? with
    | none => rfl
    | some name =>
      dsimp only
      rw [demandDirectory_emptied]
      cases t.demandDirectory parent with
      | error e => rfl
      | ok _ =>
        dsimp only
        cases demandShort name with
        | error e => rfl
        | ok _ =>
          simp only [get?_emptied, Option.isSome_map]
          split
          · rfl
          · exact congrArg Except.ok (emptied_put t _ .directory).symm

theorem leadsToDirectory_emptied (t : FileTree) (l : Location) (segments : List Text) :
    t.emptied.leadsToDirectory l segments = t.leadsToDirectory l segments := by
  rw [leadsToDirectory, leadsToDirectory, follow_emptied]
  simp only [isDirectory_emptied]

theorem ensureDir_emptied (t : FileTree) (l : Location) (segments : List Text) :
    t.emptied.ensureDir l segments = ((t.ensureDir l segments).1.emptied, (t.ensureDir l segments).2) := by
  rw [ensureDir, ensureDir, makeDir_emptied, leadsToDirectory_emptied]
  cases t.makeDir l segments <;> rfl

theorem ensureDirs_emptied (t : FileTree) (l : Location) (segments above : List Text) :
    t.emptied.ensureDirs l segments above =
      ((t.ensureDirs l segments above).1.emptied, (t.ensureDirs l segments above).2) := by
  induction above generalizing t segments with
  | nil => exact ensureDir_emptied t l segments
  | cons name names ih =>
    rw [ensureDirs, ensureDirs, makeDir_emptied, ensureDir_emptied, ih]
    cases t.makeDir l segments with
    | ok made => rfl
    | error e =>
      cases e with
      | notFound =>
        dsimp only [Except.map]
        generalize t.ensureDirs l (name :: names).reverse names = parents
        obtain ⟨above, done | e⟩ := parents
        · rfl
        · exact ensureDir_emptied above l segments
      | _ => rfl

theorem createDir_emptied (t : FileTree) (p : Path) :
    t.emptied.createDir p = ((t.createDir p).1.emptied, (t.createDir p).2) := by
  rw [createDir, createDir]
  split
  · rfl
  · exact ensureDirs_emptied t _ _ _

theorem inside_emptied (t : FileTree) (dir : Location) :
    t.emptied.inside dir = (t.inside dir).map fun (names, e) => (names, e.emptied) := by
  rw [inside, inside, emptied, List.filterMap_map, List.map_filterMap]
  refine congrArg (List.filterMap · t.entries) (funext fun (l, e) => ?_)
  simp only [Function.comp_apply, Option.map_map]
  rfl

theorem children_emptied (t : FileTree) (dir : Location) :
    t.emptied.children dir = (t.children dir).map fun (names, e) => (names, e.emptied) := by
  rw [children, children, inside_emptied, List.filter_map]
  rfl

end FileTree

namespace Glob

open FileTree

theorem inner_emptied (s : Spot) (names : Location) (e : Entry) : s.inner names e.emptied = s.inner names e := by
  rw [Spot.inner, Spot.inner]
  simp only [Entry.emptied_eq_directory_iff]

theorem step?_emptied (t : FileTree) (s : Spot) (name : Text) : s.step? t.emptied name = s.step? t name := by
  rw [Spot.step?, Spot.step?, get?_emptied, Option.map_map]
  simp only [Function.comp_def, inner_emptied]

theorem expand_emptied (t : FileTree) (directoriesOnly : Bool) (components : List Component) (s : Spot) :
    expand t.emptied directoriesOnly components s = expand t directoriesOnly components s := by
  fun_induction expand t directoriesOnly components s with
  | case1 s skip => rw [expand, if_pos skip]
  | case2 s keep => rw [expand, if_neg keep]
  | case3 component rest s file => cases component <;> rw [expand, if_pos file]
  | case4 rest s directory name next step ih =>
    rw [expand, if_neg directory, step?_emptied, step]
    exact ih
  | case5 rest s directory name step => rw [expand, if_neg directory, step?_emptied, step]
  | case6 rest s directory tokens dotted inner =>
    rw [expand, if_neg directory, children_emptied, List.flatMap_map]
    simp only [inner_emptied, dotted, inner]
  | case7 rest s directory inner =>
    rw [expand, if_neg directory, inside_emptied, List.flatMap_map]
    cases rest with
    | nil => simp only [inner_emptied, Entry.emptied_eq_directory_iff]
    | cons component rest => simp only [inner_emptied, inner]

/-- A pattern stands for the same paths whatever the files contain. -/
theorem paths_emptied (g : Glob) (t : FileTree) : g.paths t.emptied = g.paths t := by
  have start : Spot.start t.emptied g.isAbsolute = .start t g.isAbsolute := by
    rw [Spot.start, Spot.start, isDirectory_emptied]
    rfl
  rw [paths, paths, start, expand_emptied]

end Glob
end DocComment
