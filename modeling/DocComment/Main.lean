import DocComment.Run

/-! The command. It takes in the part of the file system that its arguments can reach, runs on that
as a value, and then makes the changes that the run has made to it. -/
namespace DocComment.Main

/-- How deep directories are searched for a pattern with any number of them. -/
def depthLimit : Nat := 64

def absolute (l : Location) : String := "/" ++ "/".intercalate (l.map String.ofList)

/-- What is at a location, if anything. The content of a file is left out. -/
def inspect (l : Location) : IO (Option Entry) := do
  match ← (IO.FS.realPath (absolute l)).toBaseIO with
  | .error _ => return none
  | .ok path =>
    match ← path.metadata.toBaseIO with
    | .error _ => return none
    | .ok data =>
      match data.type with
      | .dir => return some .directory
      | .file => return some (.file .empty)
      | _ => return none

/-- Takes in what is inside a directory, down to a depth. -/
def takeInside (t : FileTree) (l : Location) : Nat → IO FileTree
  | 0 => return t
  | depth + 1 => do
    let path ← IO.FS.realPath (absolute l)
    (← path.readDir).foldlM (fun t entry => do
      let inner := l ++ [entry.fileName.toList]
      match ← inspect inner with
      | none => return t
      | some .directory => takeInside (t.put inner .directory) inner depth
      | some e => return t.put inner e) t

/-- Takes in what lies along a path, and what is inside the directories from the first segment with
a wildcard on. -/
def takePath (t : FileTree) (l : Location) : List Text → IO FileTree
  | [] => takeInside t l 1
  | segment :: rest => do
    if segment.any fun c => c = '*' || c = '?' || c = '[' then
      let depth := if ['*', '*'] ∈ segment :: rest then depthLimit else rest.length + 1
      takeInside t l depth
    else
      let inner := FileTree.descend l segment
      match ← inspect inner with
      | none => return t
      | some .directory => takePath (if inner = [] then t else t.put inner .directory) inner rest
      | some e => return t.put inner e

/-- The part of the file system that a command can reach. The contents are those of its inputs. -/
def takeTree (o : Options) : IO FileTree := do
  let here := (Path.mk (← IO.currentDir).toString.toList).segments
  let empty ← takePath { workingDir := here } [] here
  let args := o.output.toList ++ o.files
  let t ← args.foldlM (fun t arg => takePath t (t.start ⟨arg⟩) (Path.mk arg).segments) empty
  let made := (t.createDir ⟨o.output.getD []⟩).1
  let inputs := match (Inputs.resolve made [] o.files).2 with
    | .ok inputs => inputs
    | .error _ => []
  inputs.foldlM (fun t input => do
    match t.find input with
    | .ok (l, .file _) => return t.put l (.file (← IO.FS.readBinFile (absolute l)))
    | _ => return t) t

def makeChanges (old new : FileTree) : IO Unit :=
  (new.changesSince old).forM fun (l, e) =>
    match e with
    | .directory => IO.FS.createDir (absolute l)
    | .file content => IO.FS.writeBinFile (absolute l) content

def perform (command : Command) : IO UInt32 := do
  let filter := LogFilter.ofSetting ((← IO.getEnv "XQDOC_LOG").map String.toList)
  let (old, stdin) ← match command with
    | .help => pure ({}, .empty)
    | .convert o =>
      if o.files = [] then pure ({}, ← (← IO.getStdin).readBinToEnd)
      else pure (← takeTree o, .empty)
  let outcome := command.run old stdin
  makeChanges old outcome.tree
  (outcome.logLines filter).forM fun line => IO.eprintln (String.ofList line)
  IO.eprint (String.ofList outcome.stderr)
  IO.print (String.ofList outcome.stdout)
  return outcome.exitCode.toUInt32

end DocComment.Main

open DocComment in
def main (args : List String) : IO UInt32 := do
  match Command.read (args.map String.toList) with
  | .ok command => Main.perform command
  | .error e =>
    IO.eprint (String.ofList ("error: ".toList ++ e.message ++ "\n\n".toList ++ Command.usage))
    return UsageError.exitCode.toUInt32
