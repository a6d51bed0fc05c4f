import DocComment.Proofs.Directories
import DocComment.Proofs.PatternStability

/-! Runs on files that fail. Whatever goes wrong, the run stops at a known point: before anything is
done, after the output directory was made, or between two inputs. An input is either processed
completely or has left no trace. -/
namespace DocComment

open Conversion (deliver deliverAll outputOf)

/-- The run ends with exit code 1 and an error that says what has failed and by what cause. This is what the
error output shows behind the warnings. -/
structure Outcome.FailsWith (o : Outcome) (context : Text) (cause : Option Text) : Prop where
  exitCode : o.exitCode = 1
  failure : o.failure.map Failure.context = some context
  stderr : o.stderr = warningLines o.unmatched ++ errorLines context cause

theorem Outcome.failsWith {o : Outcome} {f : Failure} (failed : o.failure = some f) :
    o.FailsWith f.context f.cause? where
  exitCode := by
    rw [Outcome.exitCode, failed]
    rfl
  failure := by
    rw [failed]
    rfl
  stderr := by rw [stderr_eq, failed, Option.toList_some, List.flatMap_singleton]

/-- The only difference is that directories on the way to one are new. -/
def OnlyDirectoriesMade (out : Path) (t t' : FileTree) : Prop :=
  FileTree.Makes (t.start out) (FileTree.OnTheWay out.segments (FileTree.ancestors out)) t t'

section

variable [Patterns]

/-- A run that ends in the same way whatever its files contain. -/
def ReadsNoInput (o : Options) (tree : FileTree) (stdin : ByteArray) : Prop :=
  ∀ other : FileTree, other.emptied = tree.emptied →
    (o.run other stdin).failure = (o.run tree stdin).failure ∧
    (o.run other stdin).unmatched = (o.run tree stdin).unmatched ∧
    (o.run other stdin).log = (o.run tree stdin).log ∧
    (o.run other stdin).tree.emptied = (o.run tree stdin).tree.emptied

/-- How a run on files fails. -/
structure StopsCleanly (o : Options) (tree : FileTree) (stdin : ByteArray) : Prop where
  outputMissing : o.output = none →
    (o.run tree stdin).FailsWith "--output is required when files are given".toList none ∧
    (o.run tree stdin).tree = tree
  notCreated : ∀ out e, o.output = some out → (tree.createDir ⟨out⟩).2 = .error e →
    (o.run tree stdin).FailsWith ("failed to create output directory: ".toList ++ out) (some e.message) ∧
    OnlyDirectoriesMade ⟨out⟩ tree (o.run tree stdin).tree
  /-- Arguments are looked at in the tree that has the output directory, and the first wrong one is named. Only
  arguments in front of it are warned of. -/
  notResolved : ∀ out before arg after cause, o.output = some out → (tree.createDir ⟨out⟩).2 = .ok () →
    o.files = before ++ arg :: after →
    (∀ earlier ∈ before, ∀ flaw, ¬ Inputs.Invalid (tree.createDir ⟨out⟩).1 earlier flaw) →
    Inputs.Invalid (tree.createDir ⟨out⟩).1 arg cause →
    (o.run tree stdin).FailsWith ("invalid glob pattern: ".toList ++ arg) (some cause.message) ∧
    OnlyDirectoriesMade ⟨out⟩ tree (o.run tree stdin).tree ∧
    (o.run tree stdin).unmatched = before.filter (fun arg => !(tree.createDir ⟨out⟩).1.isFile ⟨arg⟩ &&
      decide (Inputs.contributed (tree.createDir ⟨out⟩).1 arg = [])) ∧
    (o.run tree stdin).log = [] ∧ ReadsNoInput o tree stdin
  /-- Otherwise the inputs are known, and the first of them that cannot be read or whose output cannot be
  written is named. The inputs in front of it are processed completely and nothing else is done. -/
  notDelivered : ∀ out, o.output = some out → (tree.createDir ⟨out⟩).2 = .ok () →
    (∀ arg ∈ o.files, ∀ cause, ¬ Inputs.Invalid (tree.createDir ⟨out⟩).1 arg cause) →
    ∃ inputs, (Inputs.resolve (tree.createDir ⟨out⟩).1 [] o.files).2 = .ok inputs ∧ Inputs.Increasing inputs ∧
      ∀ before input after t, inputs = before ++ input :: after →
        deliverAll (.xml o.ns) ⟨out⟩ (tree.createDir ⟨out⟩).1 before = .ok t →
        (∀ e, t.read input = .error e → e = .notUtf8 ∧
          (o.run tree stdin).FailsWith ("failed to read ".toList ++ input.text) (some e.message) ∧
          (o.run tree stdin).tree = t) ∧
        ∀ comment e, t.read input = .ok comment →
          t.write (outputOf ⟨out⟩ input) (render (.xml o.ns) comment ++ ['\n']) = .error e →
          (o.run tree stdin).FailsWith ("failed to write ".toList ++ (outputOf ⟨out⟩ input).text) (some e.message) ∧
          (o.run tree stdin).tree = t
  alwaysRendered : ∀ input e, (o.run tree stdin).failure ≠ some (.render input e)

variable [Patterns.Lawful]

theorem readsNoInput_of_not_resolved {o : Options} {tree made : FileTree} {out : Text}
    {unmatched : List Text} {cause : Inputs.InvalidPattern} (stdin : ByteArray)
    (output : o.output = some out) (files : o.files ≠ []) (created : tree.createDir ⟨out⟩ = (made, .ok ()))
    (failed : Inputs.resolve made [] o.files = (unmatched, .error cause)) : ReadsNoInput o tree stdin := by
  intro other same
  have answers := congrArg (FileTree.createDir · ⟨out⟩) same
  rw [FileTree.createDir_emptied, FileTree.createDir_emptied, created, Prod.mk.injEq] at answers
  have created' : other.createDir ⟨out⟩ = ((other.createDir ⟨out⟩).1, .ok ()) := Prod.ext rfl answers.2
  have failed' : Inputs.resolve (other.createDir ⟨out⟩).1 [] o.files = (unmatched, .error cause) := by
    rw [← Inputs.resolve_emptied, answers.1, Inputs.resolve_emptied, failed]
  rw [Options.run_files output files, Options.run_files output files, runFiles_not_resolved created failed,
    runFiles_not_resolved created' failed']
  exact ⟨rfl, rfl, rfl, answers.1⟩

/-- A run on files that fails has failed at a known point and left the tree as it was there. -/
theorem failing_run_stops (o : Options) (files : o.files ≠ []) (tree : FileTree) (stdin : ByteArray) :
    StopsCleanly o tree stdin where
  outputMissing missing := by
    have run : o.run tree stdin = { tree, failure := some .outputMissing } := by
      rw [Options.run, if_neg files, missing]
      rfl
    rw [run]
    exact ⟨Outcome.failsWith (f := .outputMissing) rfl, rfl⟩
  notCreated out e output failed := by
    have created : tree.createDir ⟨out⟩ = ((tree.createDir ⟨out⟩).1, .error e) := Prod.ext rfl failed
    rw [Options.run_files output files, runFiles_not_created created]
    exact ⟨Outcome.failsWith (f := .createOutput ⟨out⟩ e) rfl, FileTree.createDir_spec tree ⟨out⟩⟩
  notResolved out before arg after cause output done given right wrong := by
    have created : tree.createDir ⟨out⟩ = ((tree.createDir ⟨out⟩).1, .ok ()) := Prod.ext rfl done
    have failed := Inputs.resolve_eq_error (tree.createDir ⟨out⟩).1 [] right wrong after
    rw [← given] at failed
    have blind := readsNoInput_of_not_resolved stdin output files created failed
    rw [Options.run_files output files, runFiles_not_resolved created failed]
    exact ⟨Outcome.failsWith (f := .pattern ⟨arg, cause⟩) rfl, FileTree.createDir_spec tree ⟨out⟩,
      Inputs.filter_unmatched _ before, rfl, blind⟩
  notDelivered out output done right := by
    have created : tree.createDir ⟨out⟩ = ((tree.createDir ⟨out⟩).1, .ok ()) := Prod.ext rfl done
    have resolved := congrArg Prod.snd (Inputs.resolve_eq_ok (tree.createDir ⟨out⟩).1 [] right)
    refine ⟨_, resolved, Inputs.increasing_insertAll .nil _, ?_⟩
    intro before input after t split delivered
    have member : input ∈ before ++ input :: after := List.mem_append_right before List.mem_cons_self
    rw [split] at resolved
    have stop : ∀ f, deliver (.xml o.ns) ⟨out⟩ t input = .error f →
        (o.run tree stdin).FailsWith f.context f.cause? ∧ (o.run tree stdin).tree = t := by
      intro f failed
      obtain ⟨failure, left⟩ := runFiles_not_delivered created resolved delivered failed
      rw [Options.run_files output files]
      exact ⟨Outcome.failsWith failure, left⟩
    constructor
    · intro e failed
      have file := Inputs.isFile_of_mem_resolved resolved member
      refine ⟨FileTree.read_error_of_isFile (Conversion.isFile_of_delivered file delivered) failed, ?_⟩
      exact stop (.read input e) (by rw [deliver, failed])
    · intro comment e taken failed
      exact stop (.write (outputOf ⟨out⟩ input) e) (by simp only [deliver, taken, failed])
  alwaysRendered input e := by
    rw [Options.run, if_neg files]
    exact runFiles_not_render _ _ tree o.files input e

end

/-- A comment that is no text between two that are. -/
def unreadableSecond : FileTree where
  entries := [(["w".toList], .directory), (["w".toList, "a.q".toList], .file "(:~ first :)".toUTF8),
    (["w".toList, "b.q".toList], .file ⟨#[0xff]⟩), (["w".toList, "c.q".toList], .file "(:~ third :)".toUTF8)]
  workingDir := ["w".toList]

def allThree : Options where
  files := ["c.q".toList, "b.q".toList, "a.q".toList]
  output := some "o".toList

/-- What is left when the second comment cannot be read. -/
def firstDelivered : FileTree :=
  (unreadableSecond.createDir ⟨"o".toList⟩).1.put ["w".toList, "o".toList, "a.xml".toList]
    (Conversion.written (.xml none) "(:~ first :)".toList)

theorem failing_run_stops_at_second : allThree.files ≠ [] ∧
    (allThree.run unreadableSecond .empty).FailsWith "failed to read b.q".toList
      (some "stream did not contain valid UTF-8".toList) ∧
    (allThree.run unreadableSecond .empty).tree = firstDelivered := by
  have files : allThree.files ≠ [] := by decide
  have present : ∀ arg ∈ allThree.files, (unreadableSecond.createDir ⟨"o".toList⟩).1.isFile ⟨arg⟩ = true := by
    decide +kernel
  obtain ⟨inputs, resolved, _, stops⟩ :=
    (failing_run_stops allThree files unreadableSecond .empty).notDelivered "o".toList rfl (by decide +kernel)
      fun arg member cause wrong => Bool.false_ne_true (wrong.noFile.symm.trans (present arg member))
  have three : (Inputs.resolve (unreadableSecond.createDir ⟨"o".toList⟩).1 [] allThree.files).2 =
      .ok [⟨"a.q".toList⟩, ⟨"b.q".toList⟩, ⟨"c.q".toList⟩] := by decide +kernel
  cases resolved.symm.trans three
  have first : deliverAll (.xml none) ⟨"o".toList⟩ (unreadableSecond.createDir ⟨"o".toList⟩).1
      [⟨"a.q".toList⟩] = .ok firstDelivered := by decide +kernel
  obtain ⟨unreadable, _⟩ := stops [⟨"a.q".toList⟩] ⟨"b.q".toList⟩ [⟨"c.q".toList⟩] firstDelivered rfl first
  exact ⟨files, (unreadable .notUtf8 (by decide +kernel)).2⟩

end DocComment
