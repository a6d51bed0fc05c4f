import DocComment.Proofs.FileRuns
import DocComment.Proofs.PatternStability

/-! Runs that are repeated. An output is never an input of the next run as long as no argument names a
file that is called like one: a directory only stands for its comment files. So the second run finds the
same inputs with the same contents, and writes the files that are there already. -/
namespace DocComment

open FileTree Conversion

/-- A place where outputs go. -/
def OutputPlace (l : Location) : Prop := ".xml".toList <:+ Glob.nameOf l

theorem OutputPlace.not_suffix {l : Location} (h : OutputPlace l) : ¬ ".xqdoc".toList <:+ Glob.nameOf l :=
  fun comment => absurd (List.suffix_of_suffix_length_le h comment (by decide)) (by decide)

theorem outputPlace_of_locate {t : FileTree} {dir input : Path} {l : Location}
    (located : t.locate (outputOf dir input) = .ok l) : OutputPlace l := by
  obtain ⟨home, _, rfl⟩ := locate_join (Path.entryName_output input) located
  rw [OutputPlace, Glob.nameOf_append (List.cons_ne_nil _ _)]
  exact List.suffix_append _ _

namespace Inputs

variable {t : FileTree} {arg : Text} {args : List Text} {l : Location} {p : Path}
  {writes : List (Location × ByteArray)}

/-- An argument that names a directory, or a file that is not called like an output. -/
inductive Steady (t : FileTree) (arg : Text) : Prop where
  | directory (here : t.isDir ⟨arg⟩ = true)
  | file (here : t.isFile ⟨arg⟩ = true) (name : ∀ l, t.locate ⟨arg⟩ = .ok l → ¬ OutputPlace l)

theorem not_isFile_of_isDir (directory : t.isDir p = true) : t.isFile p = false := by
  obtain ⟨l, located, here⟩ := isDir_iff.mp directory
  refine Bool.eq_false_iff.mpr fun file => ?_
  obtain ⟨k, content, found⟩ := isFile_iff.mp file
  obtain ⟨located', there, _⟩ := find_file_iff.mp found
  cases located.symm.trans located'
  cases there.symm.trans (decide_eq_true_iff.mp here)

section

variable [Patterns]

theorem denoted_of_isFile (file : t.isFile ⟨arg⟩ = true) : denoted t arg = .ok [⟨arg⟩] := by
  rw [denoted, if_pos file]

theorem resolve_congr {t' : FileTree} (found : List Path) (same : ∀ arg ∈ args, denoted t' arg = denoted t arg) :
    resolve t' found args = resolve t found args := by
  induction args generalizing found with
  | nil => rfl
  | cons arg args ih =>
    have rest := fun found => ih found fun other member => same other (List.mem_cons_of_mem arg member)
    rw [resolve, resolve, same arg List.mem_cons_self]
    simp only [rest]

variable [Patterns.Lawful]

/-- A directory stands for the files that the pattern for it leads to. -/
theorem denoted_of_isDir (arg : Text) : ∃ places, Patterns.read (Patterns.inDirectory arg) = .ok places ∧
    ∀ t, t.isDir ⟨arg⟩ = true → denoted t arg = .ok ((places t).filter t.isFile) := by
  obtain ⟨places, right⟩ := Patterns.Lawful.directory_right arg
  refine ⟨places, right, fun t directory => ?_⟩
  rw [denoted, not_isFile_of_isDir directory, if_neg Bool.false_ne_true, if_pos directory, right]
  rfl

/-- What an argument stands for is no output. -/
theorem not_outputPlace_of_mem_contributed (steady : Steady t arg) (member : p ∈ contributed t arg)
    (located : t.locate p = .ok l) : ¬ OutputPlace l := by
  cases steady with
  | directory here =>
    obtain ⟨places, right, denotes⟩ := denoted_of_isDir arg
    rw [contributed, denotes t here] at member
    have found := (List.mem_filter.mp member).1
    exact fun output => output.not_suffix (Patterns.Lawful.ending right found located)
  | file here name =>
    rw [contributed_of_isFile here] at member
    cases List.mem_singleton.mp member
    exact name l located

/-- An output that is written leaves an argument what it was. -/
theorem Steady.put (steady : Steady t arg) (output : OutputPlace l) (free : t.isDirectory l = false)
    (content : ByteArray) : Steady (t.put l (.file content)) arg ∧
      denoted (t.put l (.file content)) arg = denoted t arg := by
  have written := WrittenAt.put free content
  cases steady with
  | directory here =>
    obtain ⟨places, right, denotes⟩ := denoted_of_isDir arg
    have here' := written.isDir.trans here
    have files : (places t).filter (t.put l (.file content)).isFile = (places t).filter t.isFile := by
      refine List.filter_congr fun p found => written.isFile fun k located same => ?_
      exact output.not_suffix (same ▸ Patterns.Lawful.ending right found located)
    refine ⟨.directory here', ?_⟩
    rw [denotes _ here', denotes t here, Patterns.Lawful.other right free output.not_suffix, files]
  | file here name =>
    have here' := written.isFile fun k located same => name k located (same ▸ output)
    refine ⟨.file (here'.trans here) fun k located => name k (written.locate_iff.mp located), ?_⟩
    rw [denoted_of_isFile here, denoted_of_isFile (here'.trans here)]

theorem denoted_writeAll (steady : Steady t arg) (ready : Ready t OutputPlace writes) :
    denoted (t.writeAll writes) arg = denoted t arg := by
  induction writes generalizing t with
  | nil => rfl
  | cons write writes ih =>
    obtain ⟨l, content⟩ := write
    obtain ⟨output, free⟩ := ready (l, content) List.mem_cons_self
    obtain ⟨steady', same⟩ := steady.put output free content
    have later : Ready t OutputPlace writes := fun other member => ready other (List.mem_cons_of_mem _ member)
    exact (ih steady' (later.congr (WrittenAt.put free content))).trans same

/-- Arguments stand for the same inputs after outputs were written. -/
theorem resolve_writeAll (steady : ∀ arg ∈ args, Steady t arg) (ready : Ready t OutputPlace writes) :
    resolve (t.writeAll writes) [] args = resolve t [] args :=
  resolve_congr [] fun arg member => denoted_writeAll (steady arg member) ready

theorem not_outputPlace_of_mem_resolved {inputs : List Path} (steady : ∀ arg ∈ args, Steady t arg)
    (resolved : (resolve t [] args).2 = .ok inputs) (member : p ∈ inputs) (located : t.locate p = .ok l) :
    ¬ OutputPlace l := by
  obtain ⟨_, rfl⟩ := resolve_ok_iff.mp resolved
  obtain ⟨arg, given, stood⟩ :=
    List.mem_flatMap.mp ((mem_insertAll member).resolve_right List.not_mem_nil)
  exact not_outputPlace_of_mem_contributed (steady arg given) stood located

end
end Inputs

namespace Conversion

variable {m : Markup} {dir input : Path} {t t' u : FileTree} {inputs : List Path}

/-- What is delivered does not depend on the outputs that are there. -/
theorem deliver_writes (done : deliver m dir t input = .ok t')
    (apart : ∀ l, t.locate input = .ok l → ¬ OutputPlace l) : ∃ l content, OutputPlace l ∧
      t.isDirectory l = false ∧ t' = t.put l (.file content) ∧
      ∀ u, WrittenAt OutputPlace t u → deliver m dir u input = .ok (u.put l (.file content)) := by
  obtain ⟨comment, l, taken, located, free, rfl⟩ := deliver_ok done
  refine ⟨l, _, outputPlace_of_locate located, free, rfl, fun u written => ?_⟩
  have read : u.read input = .ok comment :=
    written.symm.read (fun k located => apart k (written.locate_iff.mp located)) taken
  have free' := (written.isDirectory l).trans free
  have output := Path.entryName_output input
  have plain := Path.hasTrailingSlash_join dir output.nonempty output.noSlash
  rw [deliver, read]
  dsimp only
  rw [write_of_free (written.locate_iff.mpr located) free' plain]

theorem deliverAll_writes (done : deliverAll m dir t inputs = .ok t')
    (apart : ∀ p ∈ inputs, ∀ l, t.locate p = .ok l → ¬ OutputPlace l) : ∃ writes,
      Ready t OutputPlace writes ∧ t' = t.writeAll writes ∧
      ∀ u, WrittenAt OutputPlace t u → deliverAll m dir u inputs = .ok (u.writeAll writes) := by
  induction inputs generalizing t with
  | nil =>
    cases done
    exact ⟨[], nofun, rfl, fun u _ => rfl⟩
  | cons input inputs ih =>
    obtain ⟨first, delivered, done⟩ := deliverAll_cons_ok_iff.mp done
    obtain ⟨l, content, output, free, rfl, again⟩ := deliver_writes delivered (apart input List.mem_cons_self)
    have step := (WrittenAt.put free content).mono fun _ same => same ▸ output
    have apart' : ∀ p ∈ inputs, ∀ k, (t.put l (.file content)).locate p = .ok k → ¬ OutputPlace k :=
      fun p member k located => apart p (List.mem_cons_of_mem input member) k (step.locate_iff.mp located)
    obtain ⟨writes, ready, rfl, again'⟩ := ih done apart'
    refine ⟨(l, content) :: writes, ?_, rfl, fun u written => ?_⟩
    · exact List.forall_mem_cons.mpr ⟨⟨output, free⟩, ready.congr step.symm⟩
    · have free' := (written.isDirectory l).trans free
      have step' := (WrittenAt.put free' content).mono fun _ same => same ▸ output
      exact deliverAll_cons_ok_iff.mpr ⟨_, again u written, again' _ (step.symm.trans (written.trans step'))⟩

end Conversion

/-- A run on files that succeeds has delivered all inputs. -/
theorem runFiles_delivers [Patterns] {m : Markup} {out : Text} {tree : FileTree} {files : List Text}
    (success : (runFiles m (some out) tree files).failure = none) : ∃ made inputs t,
      tree.createDir ⟨out⟩ = (made, .ok ()) ∧ (Inputs.resolve made [] files).2 = .ok inputs ∧
        deliverAll m ⟨out⟩ made inputs = .ok t := by
  obtain ⟨made, inputs, _, created, resolved, _⟩ := runFiles_ok success
  rcases deliverAll_or_first_failed m ⟨out⟩ made inputs with
    ⟨t, done⟩ | ⟨before, input, after, t, f, rfl, done, failed⟩
  · exact ⟨made, inputs, t, created, resolved, done⟩
  · obtain ⟨failure, _⟩ := runFiles_not_delivered created resolved done failed
    cases failure.symm.trans success

/-- A run on files that succeeds can be repeated any time and changes nothing then, as long as no
argument names a file that is called like an output. -/
theorem rerun_changes_nothing [Patterns] [Patterns.Lawful] (o : Options) (out : Text) (tree : FileTree)
    (stdin stdin' : ByteArray) (output : o.output = some out) (files : o.files ≠ [])
    (steady : ∀ arg ∈ o.files, Inputs.Steady (tree.createDir ⟨out⟩).1 arg)
    (success : (o.run tree stdin).exitCode = 0) :
    (o.run (o.run tree stdin).tree stdin').exitCode = 0 ∧
      (o.run (o.run tree stdin).tree stdin').tree = (o.run tree stdin).tree := by
  rw [Options.run_files output files] at success ⊢
  obtain ⟨made, inputs, t, created, resolved, done⟩ := runFiles_delivers (Outcome.failure_eq_none success)
  rw [created] at steady
  have apart : ∀ p ∈ inputs, ∀ l, made.locate p = .ok l → ¬ OutputPlace l := fun p member l =>
    Inputs.not_outputPlace_of_mem_resolved steady resolved member
  obtain ⟨writes, ready, rfl, again⟩ := deliverAll_writes done apart
  obtain ⟨_, left⟩ := runFiles_delivered created resolved done
  have written := writtenAt_writeAll ready
  have created' := createDir_again created written.keeps
  have resolved' := (congrArg Prod.snd (Inputs.resolve_writeAll steady ready)).trans resolved
  have done' := again _ written
  rw [writeAll_again made (List.Subset.refl _)] at done'
  obtain ⟨noFailure, same⟩ := runFiles_delivered created' resolved' done'
  rw [Options.run_files output files, left, Outcome.exitCode, noFailure, same]
  exact ⟨rfl, rfl⟩

/-- Two comments with one stem, one of them where the outputs go. -/
def sharedDirectory : FileTree where
  entries := [(["w".toList], .directory), (["w".toList, "a.q".toList], .file "(:~ first :)".toUTF8),
    (["w".toList, "d".toList], .directory),
    (["w".toList, "d".toList, "a.xqdoc".toList], .file "(:~ second :)".toUTF8)]
  workingDir := ["w".toList]

def intoDirectory : Options where
  files := ["d".toList, "a.q".toList]
  output := some "d".toList

theorem rerun_changes_nothing_shared : (intoDirectory.run sharedDirectory .empty).exitCode = 0 ∧
    (intoDirectory.run (intoDirectory.run sharedDirectory .empty).tree .empty).exitCode = 0 ∧
    (intoDirectory.run (intoDirectory.run sharedDirectory .empty).tree .empty).tree =
      (intoDirectory.run sharedDirectory .empty).tree := by
  have success : (intoDirectory.run sharedDirectory .empty).exitCode = 0 := by decide +kernel
  have steady : ∀ arg ∈ intoDirectory.files, Inputs.Steady (sharedDirectory.createDir ⟨"d".toList⟩).1 arg := by
    have place : (sharedDirectory.createDir ⟨"d".toList⟩).1.locate ⟨"a.q".toList⟩ =
        .ok ["w".toList, "a.q".toList] := by decide +kernel
    refine List.forall_mem_cons.mpr ⟨.directory (by decide +kernel), List.forall_mem_singleton.mpr ?_⟩
    refine .file (by decide +kernel) fun l located => ?_
    cases place.symm.trans located
    rw [OutputPlace]
    decide
  exact ⟨success, rerun_changes_nothing intoDirectory "d".toList sharedDirectory .empty .empty rfl
    (List.cons_ne_nil _ _) steady success⟩

end DocComment
