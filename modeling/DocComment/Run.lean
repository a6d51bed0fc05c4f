import DocComment.Inputs
import DocComment.Log.Filter
import DocComment.Options
import DocComment.Session

/-! Runs of the command on a tree of files. Without files the comment is taken from the standard
input. Otherwise the output directory is made, all arguments are resolved, and the inputs are
converted one by one until one fails. -/
namespace DocComment

inductive Failure where
  | outputMissing
  | createOutput (dir : Path) (cause : FileError)
  | pattern (cause : Inputs.InvalidPattern)
  | read (input : Path) (cause : FileError)
  | render (input : Path) (cause : RenderError)
  | write (output : Path) (cause : FileError)
  | readStdin (cause : FileError)
  | renderStdin (cause : RenderError)
deriving DecidableEq, Repr

namespace Failure

def context : Failure → Text
  | .outputMissing => "--output is required when files are given".toList
  | .createOutput dir _ => "failed to create output directory: ".toList ++ dir.text
  | .pattern cause => "invalid glob pattern: ".toList ++ cause.pattern
  | .read input _ => "failed to read ".toList ++ input.text
  | .render input _ => "failed to parse ".toList ++ input.text
  | .write output _ => "failed to write ".toList ++ output.text
  | .readStdin _ => "failed to read stdin".toList
  | .renderStdin _ => "failed to parse comment from stdin".toList

def cause? : Failure → Option Text
  | .outputMissing => none
  | .createOutput _ cause | .read _ cause | .write _ cause | .readStdin cause => some cause.message
  | .pattern cause => some cause.cause.message
  | .render _ cause | .renderStdin cause => some cause.message

def report (f : Failure) : Text :=
  "Error: ".toList ++ f.context ++ ['\n'] ++
    match f.cause? with
    | none => []
    | some cause => "\nCaused by:\n    ".toList ++ cause ++ ['\n']

end Failure

structure Outcome where
  tree : FileTree
  stdout : Text := []
  /-- The arguments for which no file was found. -/
  unmatched : List Text := []
  log : List LogRecord := []
  failure : Option Failure := none

namespace Outcome

def exitCode (o : Outcome) : Nat := if o.failure.isSome then 1 else 0

def stderr (o : Outcome) : Text :=
  o.unmatched.flatMap (fun arg => "warning: no files matched: ".toList ++ arg ++ ['\n']) ++
    (o.failure.map Failure.report).getD []

def logLines (o : Outcome) (filter : LogFilter) : List Text :=
  (o.log.filter filter.shows).map LogRecord.line

end Outcome

/-- A conversion under way. One session serves all inputs. -/
structure Conversion where
  tree : FileTree
  session : Session
  log : List LogRecord := []

namespace Conversion

def outputOf (dir input : Path) : Path := dir.join (input.stem ++ ".xml".toList)

def wrote (input output : Path) : LogRecord where
  level := .debug
  component := "xqdoc".toList
  message := "wrote comment".toList
  fields := [("input".toList, input.text), ("output".toList, output.text)]

def convert (dir : Path) (c : Conversion) (input : Path) : Conversion × Option Failure :=
  match c.tree.read input with
  | .error e => (c, some (.read input e))
  | .ok comment =>
    let ready := c.session.clear.set comment
    let log := c.log ++ ready.events.map Event.record
    match ready.render with
    | (.error e, session) => ({ c with session, log }, some (.render input e))
    | (.ok xml, session) =>
      let output := outputOf dir input
      match c.tree.write output (xml ++ ['\n']) with
      | .error e => ({ c with session, log }, some (.write output e))
      | .ok tree => ({ tree, session, log := log ++ [wrote input output] }, none)

/-- Converts inputs in turn, up to the first that fails. -/
def convertAll (dir : Path) (c : Conversion) : List Path → Conversion × Option Failure
  | [] => (c, none)
  | input :: inputs =>
    match c.convert dir input with
    | (c, none) => c.convertAll dir inputs
    | failed => failed

end Conversion

def runStdin (m : Markup) (tree : FileTree) (stdin : ByteArray) : Outcome :=
  match String.fromUTF8? stdin with
  | none => { tree, failure := some (.readStdin .notUtf8) }
  | some text =>
    let ready := ({ markup := m } : Session).set text.toList
    let log := ready.events.map Event.record
    match ready.render with
    | (.error e, _) => { tree, log, failure := some (.renderStdin e) }
    | (.ok xml, _) => { tree, log, stdout := xml ++ ['\n'] }

section

variable [Patterns]

def runFiles (m : Markup) (output : Option Text) (tree : FileTree) (files : List Text) : Outcome :=
  match output with
  | none => { tree, failure := some .outputMissing }
  | some dir =>
    match tree.createDir ⟨dir⟩ with
    | (tree, .error e) => { tree, failure := some (.createOutput ⟨dir⟩ e) }
    | (tree, .ok ()) =>
      match Inputs.resolve tree [] files with
      | (unmatched, .error cause) => { tree, unmatched, failure := some (.pattern cause) }
      | (unmatched, .ok inputs) =>
        let (c, failure) := ({ tree, session := { markup := m } } : Conversion).convertAll ⟨dir⟩ inputs
        { tree := c.tree, unmatched, log := c.log, failure }

def Options.run (o : Options) (tree : FileTree) (stdin : ByteArray) : Outcome :=
  if o.files = [] then runStdin (.xml o.ns) tree stdin
  else runFiles (.xml o.ns) o.output tree o.files

def Command.run (tree : FileTree) (stdin : ByteArray) : Command → Outcome
  | .help => { tree, stdout := helpText }
  | .convert o => o.run tree stdin

end
end DocComment
