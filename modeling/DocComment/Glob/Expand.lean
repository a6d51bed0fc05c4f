import DocComment.FileTree.Access
import DocComment.Glob.Pattern

/-! Patterns for paths, and the paths in a tree that they stand for. A pattern is matched component
by component, so that neither a star nor a question mark stands for a slash. -/
namespace DocComment

namespace Glob

inductive Component where
  | literal (name : Text)
  | pattern (tokens : List Token)
  /-- Any number of directories. -/
  | directories
deriving DecidableEq, Repr

end Glob

structure Glob where
  isAbsolute : Bool
  components : List Glob.Component
  /-- The pattern ends in a slash. -/
  directoriesOnly : Bool
deriving DecidableEq, Repr

namespace Glob

def literal? : List Token → Option Text
  | [] => some []
  | .char c :: rest => (literal? rest).map (c :: ·)
  | _ => none

def Component.ofTokens (tokens : List Token) : Component :=
  match literal? tokens with
  | some name => .literal name
  | none => if tokens = [.directories] then .directories else .pattern tokens

def Component.fits (name : Text) : Component → Bool
  | .literal text => name = text
  | .pattern tokens => Glob.fits tokens name
  | .directories => false

/-- Stars for directories that follow one another stand for no more than the last of them. -/
def collapse : List Component → List Component
  | .directories :: .directories :: rest => collapse (.directories :: rest)
  | c :: rest => c :: collapse rest
  | [] => []

/-- Reads a pattern. It has to be right as a whole and then in each component. -/
def parse (pattern : Text) : Except PatternError Glob := do
  let _ ← tokens pattern
  let isAbsolute := pattern.head? = some '/'
  let body : Text := if isAbsolute then pattern.drop 1 else pattern
  let pieces := if body = [] then [[]] else body.cut '/'
  let components ← pieces.mapM fun piece => return Component.ofTokens (← tokens piece)
  return {
    isAbsolute
    components := collapse components
    directoriesOnly := pattern.getLast? = some '/' }

/-- The path of an entry in the directory that `dir` names. What is in the working directory is
named without a dot in front. -/
def child (dir : Path) (name : Text) : Path :=
  if dir.components = [.current] then ⟨name⟩ else dir.join name

/-- A place that a pattern has led to, next to the path that spells it. -/
structure Spot where
  path : Path
  location : Location
  isDirectory : Bool
deriving DecidableEq, Repr

/-- An entry inside a directory. -/
def Spot.inner (s : Spot) (names : Location) (e : Entry) : Spot where
  path := names.foldl child s.path
  location := s.location ++ names
  isDirectory := e = .directory

/-- The directory itself or the one above it. -/
def Spot.dotted (s : Spot) (name : Text) (path : Path) : Spot where
  path
  location := FileTree.descend s.location name
  isDirectory := true

/-- What a name leads to from a directory. The empty name leads nowhere but adds a slash, unless
there is nothing to add it to. -/
def Spot.step? (t : FileTree) (s : Spot) (name : Text) : Option Spot :=
  if name = [] then
    if s.path.components = [.current] then none else some { s with path := s.path.join [] }
  else if name = ['.'] || name = ['.', '.'] then some (s.dotted name (child s.path name))
  else (t.get? (s.location ++ [name])).map fun e => s.inner [name] e

/-- The two dotted names that a directory answers to fit a pattern only where it starts with a dot
of its own. -/
def dottedNames (tokens : List Token) : List Text :=
  if tokens.head? = some (.char '.') then
    [['.', '.'], ['.']].filter fun name => fits tokens name
  else []

/-- The last name of a location. -/
def nameOf (names : Location) : Text := names.getLast?.getD []

/-- The places that components lead to from a place. -/
def expand (t : FileTree) (directoriesOnly : Bool) : List Component → Spot → List Spot
  | [], s => if directoriesOnly && !s.isDirectory then [] else [s]
  | component :: rest, s =>
    if !s.isDirectory then []
    else
      match component with
      | .literal name =>
        match s.step? t name with
        | some next => expand t directoriesOnly rest next
        | none => []
      | .pattern tokens =>
        ((dottedNames tokens).flatMap fun name =>
          expand t directoriesOnly rest (s.dotted name (s.path.join name))) ++
        (t.children s.location).flatMap fun (names, e) =>
          if fits tokens (nameOf names) then expand t directoriesOnly rest (s.inner names e) else []
      | .directories =>
        (t.inside s.location).flatMap fun (names, e) =>
          match rest with
          | [] => if e = .directory then [s.inner names e] else []
          | component :: rest =>
            if component.fits (nameOf names) then
              expand t directoriesOnly rest (s.inner names e)
            else []

/-- Where patterns start. -/
def Spot.start (t : FileTree) (isAbsolute : Bool) : Spot :=
  if isAbsolute then ⟨⟨['/']⟩, [], true⟩
  else ⟨⟨['.']⟩, t.workingDir, t.isDirectory t.workingDir⟩

/-- The paths in a tree that a pattern stands for. A path may come up more than once, and in more
than one spelling. -/
def paths (g : Glob) (t : FileTree) : List Path :=
  (expand t g.directoriesOnly g.components (.start t g.isAbsolute)).map Spot.path

end Glob
end DocComment
