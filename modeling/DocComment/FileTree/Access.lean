import DocComment.FileTree.Basic

/-! Reading and changing a tree through paths. A path is followed segment by segment, and each
segment is looked up in a directory that has to exist. -/
namespace DocComment

inductive FileError where
  | notFound
  | alreadyExists
  | notADirectory
  | isADirectory
  | nameTooLong
  | notUtf8
deriving DecidableEq, Repr

def FileError.message : FileError → Text
  | .notFound => "No such file or directory (os error 2)".toList
  | .alreadyExists => "File exists (os error 17)".toList
  | .notADirectory => "Not a directory (os error 20)".toList
  | .isADirectory => "Is a directory (os error 21)".toList
  | .nameTooLong => "File name too long (os error 36)".toList
  | .notUtf8 => "stream did not contain valid UTF-8".toList

namespace FileTree

def demandDirectory (t : FileTree) (l : Location) : Except FileError Unit :=
  match t.get? l with
  | some .directory => .ok ()
  | some (.file _) => .error .notADirectory
  | none => .error .notFound

/-- A name has at most 255 bytes. -/
def demandShort (name : Text) : Except FileError Unit :=
  if (String.ofList name).utf8ByteSize ≤ 255 then .ok () else .error .nameTooLong

/-- One step from a directory. Two dots at the root stay there. -/
def descend (l : Location) (segment : Text) : Location :=
  if segment = ['.'] then l
  else if segment = ['.', '.'] then l.dropLast
  else l ++ [segment]

/-- Follows segments from a location. The location reached need not exist. -/
def follow (t : FileTree) : Location → List Text → Except FileError Location
  | l, [] => .ok l
  | l, segment :: rest => do
    t.demandDirectory l
    demandShort segment
    t.follow (descend l segment) rest

def start (t : FileTree) (p : Path) : Location := if p.isAbsolute then [] else t.workingDir

/-- The location that a path names. The empty path names none. -/
def locate (t : FileTree) (p : Path) : Except FileError Location :=
  if p.text = [] then .error .notFound
  else if p.isTooLong then .error .nameTooLong
  else t.follow (t.start p) p.segments

def find (t : FileTree) (p : Path) : Except FileError (Location × Entry) := do
  let l ← t.locate p
  match t.get? l with
  | none => .error .notFound
  | some .directory => .ok (l, .directory)
  | some (.file content) =>
    if p.hasTrailingSlash then .error .notADirectory else .ok (l, .file content)

def isFile (t : FileTree) (p : Path) : Bool :=
  match t.find p with
  | .ok (_, .file _) => true
  | _ => false

def isDir (t : FileTree) (p : Path) : Bool :=
  match t.find p with
  | .ok (_, .directory) => true
  | _ => false

def read (t : FileTree) (p : Path) : Except FileError Text := do
  match ← t.find p with
  | (_, .directory) => .error .isADirectory
  | (_, .file content) =>
    match String.fromUTF8? content with
    | some text => .ok text.toList
    | none => .error .notUtf8

def write (t : FileTree) (p : Path) (text : Text) : Except FileError FileTree := do
  let l ← t.locate p
  if t.isDirectory l || p.hasTrailingSlash then .error .isADirectory
  else .ok (t.put l (.file (String.ofList text).toUTF8))

/-- Creates one directory, whose parent has to exist. -/
def makeDir (t : FileTree) (l : Location) (segments : List Text) : Except FileError FileTree := do
  let parent ← t.follow l segments.dropLast
  match segments.getLast? with
  | none => .error .alreadyExists
  | some name =>
    t.demandDirectory parent
    demandShort name
    let target := descend parent name
    if name = ['.'] || name = ['.', '.'] || (t.get? target).isSome then .error .alreadyExists
    else .ok (t.put target .directory)

def leadsToDirectory (t : FileTree) (l : Location) (segments : List Text) : Bool :=
  match t.follow l segments with
  | .ok target => t.isDirectory target
  | .error _ => false

def ensureDir (t : FileTree) (l : Location) (segments : List Text) :
    FileTree × Except FileError Unit :=
  match t.makeDir l segments with
  | .ok t => (t, .ok ())
  | .error e => (t, if t.leadsToDirectory l segments then .ok () else .error e)

/-- Creates a directory. Where its parent is missing, the parent is created first; `ancestors` are
the components above the directory, the nearest first. Directories made on the way stay, also when
a later one cannot be made. -/
def ensureDirs (t : FileTree) (l : Location) (segments : List Text) :
    List Text → FileTree × Except FileError Unit
  | [] => t.ensureDir l segments
  | name :: names =>
    match t.makeDir l segments with
    | .error .notFound =>
      match t.ensureDirs l (name :: names).reverse names with
      | (t, .ok ()) => t.ensureDir l segments
      | failed => failed
    | _ => t.ensureDir l segments

/-- The segments that spell the components above a path, the nearest first. -/
def ancestors (p : Path) : List Text :=
  let names := p.components.filterMap fun
    | .root => none
    | .current => some ['.']
    | .parent => some ['.', '.']
    | .normal name => some name
  names.reverse.drop 1

/-- Creates a directory and those above it that are missing. -/
def createDir (t : FileTree) (p : Path) : FileTree × Except FileError Unit :=
  if p.isTooLong then (t, .error .nameTooLong)
  else t.ensureDirs (t.start p) p.segments (ancestors p)

end FileTree
end DocComment
