import DocComment.Path

/-! A tree of files and directories. An entry is found at a location, the list of names that leads
to it from the root; the root itself is always a directory. The entries are kept in the order of
their locations, so a directory comes right before what is inside it. -/
namespace DocComment

abbrev Location := List Text

inductive Entry where
  | file (content : ByteArray)
  | directory

instance : DecidableEq Entry
  | .directory, .directory => isTrue rfl
  | .directory, .file _ => isFalse nofun
  | .file _, .directory => isFalse nofun
  | .file a, .file b =>
    if same : a.data = b.data then isTrue (congrArg Entry.file (ByteArray.ext same))
    else isFalse fun h => same (congrArg ByteArray.data (Entry.file.inj h))

structure FileTree where
  entries : List (Location × Entry) := []
  /-- Where relative paths start. -/
  workingDir : Location := []
deriving DecidableEq

def Location.key (l : Location) : List (List Nat) := l.map fun name => name.map Char.toNat

namespace FileTree

def get? (t : FileTree) (l : Location) : Option Entry :=
  if l = [] then some .directory else t.entries.lookup l

def isDirectory (t : FileTree) (l : Location) : Bool := t.get? l = some .directory

/-- Puts an entry into an ordered list, in place of an earlier one at its location. -/
def place (l : Location) (e : Entry) : List (Location × Entry) → List (Location × Entry)
  | [] => [(l, e)]
  | (k, x) :: rest =>
    if l = k then (l, e) :: rest
    else if compare (Location.key l) (Location.key k) = .lt then (l, e) :: (k, x) :: rest
    else (k, x) :: place l e rest

def put (t : FileTree) (l : Location) (e : Entry) : FileTree :=
  { t with entries := place l e t.entries }

/-- The rest of a location behind `dir`, unless it does not lie strictly inside. -/
def inside? : Location → Location → Option Location
  | [], [] => none
  | [], name :: names => some (name :: names)
  | _ :: _, [] => none
  | d :: ds, name :: names => if d = name then inside? ds names else none

/-- Everything strictly inside a directory, by its location relative to the directory. A directory
comes before what is inside it, and neighbours are in the order of their names. -/
def inside (t : FileTree) (dir : Location) : List (Location × Entry) :=
  t.entries.filterMap fun (l, e) => (inside? dir l).map fun names => (names, e)

/-- What is directly inside a directory. -/
def children (t : FileTree) (dir : Location) : List (Location × Entry) :=
  (t.inside dir).filter fun (names, _) => names.length = 1

/-- The entries of a tree that are not the same in an earlier one. -/
def changesSince (t old : FileTree) : List (Location × Entry) :=
  t.entries.filter fun (l, e) => old.get? l ≠ some e

private theorem lookup_cons_if (k l : Location) (e : Entry) (rest : List (Location × Entry)) :
    ((l, e) :: rest).lookup k = if k = l then some e else rest.lookup k := by
  by_cases h : k = l
  · simp [h]
  · simp [List.lookup_cons, h, beq_eq_false_iff_ne.mpr h]

private theorem lookup_place (l k : Location) (e : Entry) (entries : List (Location × Entry)) :
    (place l e entries).lookup k = if k = l then some e else entries.lookup k := by
  induction entries with
  | nil => simp [place, lookup_cons_if]
  | cons head rest ih =>
    obtain ⟨first, x⟩ := head
    simp only [place]
    split
    · next same =>
      subst same
      simp only [lookup_cons_if]
      split <;> rfl
    · next other =>
      split
      · simp only [lookup_cons_if]
      · simp only [lookup_cons_if, ih]
        by_cases h : k = first
        · simp [h, Ne.symm other]
        · simp [h]

@[simp] theorem get?_root (t : FileTree) : t.get? [] = some .directory := rfl

/-- Only the location written to changes. -/
theorem get?_put (t : FileTree) {l : Location} (h : l ≠ []) (e : Entry) (k : Location) :
    (t.put l e).get? k = if k = l then some e else t.get? k := by
  simp only [get?, put, lookup_place]
  by_cases root : k = []
  · simp [root, Ne.symm h]
  · simp [root]

@[simp] theorem workingDir_put (t : FileTree) (l : Location) (e : Entry) :
    (t.put l e).workingDir = t.workingDir := rfl

end FileTree
end DocComment
