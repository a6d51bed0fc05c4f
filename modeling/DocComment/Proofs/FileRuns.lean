import DocComment.Proofs.Directories
import DocComment.Proofs.PatternStability

/-! What a run on files leaves behind. The output directory is made first, then the inputs are
resolved in the tree with it, and their outputs are written one by one into the same tree. Inputs with
the same stem share an output, and since inputs are taken in order, the greatest of them stays. -/
namespace DocComment

theorem Outcome.failure_eq_none {o : Outcome} (success : o.exitCode = 0) : o.failure = none := by
  rw [exitCode] at success
  split at success
  · cases success
  · next fine => exact Option.not_isSome_iff_eq_none.mp fine

/-- A run on files that succeeds makes the output directory, resolves all arguments and converts all inputs. -/
theorem runFiles_ok [Patterns] {m : Markup} {out : Text} {tree : FileTree} {files : List Text}
    (success : (runFiles m (some out) tree files).failure = none) : ∃ made inputs c,
      tree.createDir ⟨out⟩ = (made, .ok ()) ∧ (Inputs.resolve made [] files).2 = .ok inputs ∧
      ({ tree := made, session := { markup := m } } : Conversion).convertAll ⟨out⟩ inputs = (c, none) ∧
      (runFiles m (some out) tree files).tree = c.tree := by
  cases created : tree.createDir ⟨out⟩ with
  | mk made answer =>
    cases answer with
    | error e =>
      simp only [runFiles, created] at success
      cases success
    | ok done =>
      cases resolved : Inputs.resolve made [] files with
      | mk unmatched inputs =>
        cases inputs with
        | error cause =>
          simp only [runFiles, created, resolved] at success
          cases success
        | ok inputs =>
          simp only [runFiles, created, resolved] at success ⊢
          exact ⟨made, inputs, _, rfl, by rw [resolved], Prod.ext rfl success, rfl⟩

theorem runStdin_ok [Patterns] {ns : Option Text} {content : ByteArray} {comment : String}
    (decoded : String.fromUTF8? content = some comment) (tree : FileTree) :
    (({ ns } : Options).run tree content).exitCode = 0 ∧
      (({ ns } : Options).run tree content).stdout = render (.xml ns) comment.toList ++ ['\n'] := by
  have run : ({ ns } : Options).run tree content = runStdin (.xml ns) tree content := if_pos rfl
  have rendered := Session.render_of_ready (s := ({ markup := .xml ns } : Session).set comment.toList) rfl rfl
  simp only [run, runStdin, decoded, rendered]
  exact ⟨rfl, rfl⟩

/-- The input with a stem that comes after all others with it. -/
structure Greatest (inputs : List Path) (stem : Text) (p : Path) : Prop where
  mem : p ∈ inputs
  sameStem : p.stem = stem
  last : ∀ q ∈ inputs, q.stem = stem → q = p ∨ q.order p = .lt

namespace Conversion

open FileTree

/-- In the order of paths, the last of the inputs with one output is the greatest with its stem. -/
theorem Delivered.greatest {t : FileTree} {m : Markup} {dir q : Path} {inputs : List Path}
    {l : Location} {e : Entry} (h : Delivered t m dir inputs l e) (increasing : Inputs.Increasing inputs)
    (lies : t.locate (outputOf dir q) = .ok l) :
    ∃ p comment, Greatest inputs q.stem p ∧ t.read p = .ok comment ∧ e = written m comment := by
  obtain ⟨before, p, after, comment, rfl, located, least, taken, value⟩ := h.last
  have same := stem_eq_of_locate located lies
  refine ⟨p, comment, ⟨?_, same, fun r member stem => ?_⟩, taken, value⟩
  · exact List.mem_append_right before List.mem_cons_self
  · have ordered := (List.pairwise_append.mp increasing).2.2
    rcases List.mem_append.mp member with earlier | rest
    · exact .inr (ordered r earlier p List.mem_cons_self)
    · rcases List.mem_cons.mp rest with here | later
      · exact .inl here
      · have output : outputOf dir r = outputOf dir p := by rw [outputOf, outputOf, stem, same]
        exact absurd (output ▸ located) (least r later)

end Conversion

/-- What a run on files makes of a tree: `made` is the tree once the output directory was made, `final`
the tree in the end. -/
structure LeavesRenderings [Patterns] (ns : Option Text) (out : Path) (inputs : List Path)
    (tree made final : FileTree) : Prop where
  /-- Under each stem lies the rendering of the comment that the greatest input with this stem held
  before the run, with the line feed that the standard output shows behind it, too. -/
  outputs : ∀ q ∈ inputs, ∃ p, Greatest inputs q.stem p ∧ ∃ place content comment xml l,
    made.locate p = .ok place ∧ tree.get? place = some (.file content) ∧
    String.fromUTF8? content = some comment ∧
    (({ markup := .xml ns } : Session).set comment.toList).render.1 = .ok xml ∧
    final.locate (Conversion.outputOf out q) = .ok l ∧
    final.get? l = some (.file (String.ofList (xml ++ ['\n'])).toUTF8) ∧
    ∀ other, (({ ns } : Options).run other content).exitCode = 0 ∧
      (({ ns } : Options).run other content).stdout = xml ++ ['\n']
  directory : final.leadsToDirectory (final.start out) out.segments = true
  /-- Nothing else is new or changed but directories on the way to the outputs. -/
  others : ∀ l, final.get? l = tree.get? l ∨ Conversion.Outputs final out inputs l ∨
    tree.get? l = none ∧ final.get? l = some .directory ∧
      ∃ names, FileTree.OnTheWay out.segments (FileTree.ancestors out) names ∧
        final.follow (final.start out) names = .ok l

/-- A run on files that succeeds leaves the renderings of its inputs, each as it was before the run,
unless an input lies where an output goes. -/
theorem run_on_files_leaves [Patterns] [Patterns.Lawful] (o : Options) (out : Text) (tree : FileTree)
    (stdin : ByteArray) (output : o.output = some out) (files : o.files ≠ []) (success : (o.run tree stdin).exitCode = 0) :
    ∃ made inputs, tree.createDir ⟨out⟩ = (made, .ok ()) ∧
      (Inputs.resolve made [] o.files).2 = .ok inputs ∧
      ((∀ p ∈ inputs, ∀ l, made.locate p = .ok l → ¬ Conversion.Outputs made ⟨out⟩ inputs l) →
        LeavesRenderings o.ns ⟨out⟩ inputs tree made (o.run tree stdin).tree) := by
  have run : o.run tree stdin = runFiles (.xml o.ns) (some out) tree o.files := by
    rw [Options.run, if_neg files, output]
  rw [run] at success ⊢
  obtain ⟨made, inputs, c, created, resolved, converted, final⟩ :=
    runFiles_ok (Outcome.failure_eq_none success)
  refine ⟨made, inputs, created, resolved, fun apart => ?_⟩
  rw [final]
  have frame := Conversion.convertAll_frame converted
  have makes := FileTree.createDir_spec tree ⟨out⟩
  rw [created] at makes
  have start : c.tree.start ⟨out⟩ = tree.start ⟨out⟩ := by
    rw [FileTree.start, FileTree.start, frame.workingDir, makes.workingDir]
  refine ⟨fun q member => ?_, ?_, fun l => ?_⟩
  · obtain ⟨l, e, lies, holds, delivered⟩ := Conversion.convertAll_delivers converted apart member
    have increasing := Inputs.increasing_resolve List.Pairwise.nil resolved
    obtain ⟨p, comment, greatest, taken, rfl⟩ := delivered.greatest increasing lies
    obtain ⟨place, content, s, found, decoded, rfl⟩ := FileTree.read_ok_iff.mp taken
    obtain ⟨located, here, _⟩ := FileTree.find_file_iff.mp found
    exact ⟨p, greatest, place, content, s, _, l, located, makes.file here, decoded,
      Session.render_of_fresh _ _, frame.locate_iff.mpr lies, holds, runStdin_ok decoded⟩
  · have leads := FileTree.createDir_leads (congrArg Prod.snd created)
    rw [created] at leads
    rw [start]
    exact FileTree.leadsToDirectory_of_keeps frame.keeps leads
  · by_cases output : Conversion.Outputs made ⟨out⟩ inputs l
    · obtain ⟨q, member, lies⟩ := output
      exact .inr (.inl ⟨q, member, frame.locate_iff.mpr lies⟩)
    · have same := frame.get? l output
      rw [start]
      rcases makes.get? l with kept | ⟨missing, directory, names, way, led⟩
      · exact .inl (same.trans kept)
      · exact .inr (.inr ⟨missing, same.trans directory, names, way,
          FileTree.follow_of_keeps frame.keeps led⟩)

/-- Two comments with one stem. -/
def twoInputs : FileTree where
  entries := [(["w".toList], .directory), (["w".toList, "d".toList], .directory),
    (["w".toList, "d".toList, "x.q".toList], .file "(:~ old :)".toUTF8),
    (["w".toList, "x.q".toList], .file "(:~ new :)".toUTF8)]
  workingDir := ["w".toList]

def bothInputs : Options where
  files := ["x.q".toList, "d/x.q".toList]
  output := some "o/p".toList
  ns := some "n".toList

theorem run_on_files_leaves_greatest_of_two :
    (bothInputs.run twoInputs .empty).exitCode = 0 ∧
      LeavesRenderings (some "n".toList) ⟨"o/p".toList⟩ [⟨"d/x.q".toList⟩, ⟨"x.q".toList⟩] twoInputs
        (twoInputs.createDir ⟨"o/p".toList⟩).1 (bothInputs.run twoInputs .empty).tree := by
  have success : (bothInputs.run twoInputs .empty).exitCode = 0 := by decide +kernel
  obtain ⟨made, inputs, created, resolved, leaves⟩ :=
    run_on_files_leaves bothInputs "o/p".toList twoInputs .empty rfl (List.cons_ne_nil _ _) success
  obtain rfl : (twoInputs.createDir ⟨"o/p".toList⟩).1 = made := congrArg Prod.fst created
  have both : (Inputs.resolve (twoInputs.createDir ⟨"o/p".toList⟩).1 [] bothInputs.files).2.toOption =
      some [⟨"d/x.q".toList⟩, ⟨"x.q".toList⟩] := by decide +kernel
  rw [resolved] at both
  obtain rfl : inputs = [⟨"d/x.q".toList⟩, ⟨"x.q".toList⟩] := Option.some.inj both
  have apart : ∀ p ∈ [Path.mk "d/x.q".toList, ⟨"x.q".toList⟩],
      ∀ q ∈ [Path.mk "d/x.q".toList, ⟨"x.q".toList⟩],
        ((twoInputs.createDir ⟨"o/p".toList⟩).1.locate p).toOption ≠
          ((twoInputs.createDir ⟨"o/p".toList⟩).1.locate
            (Conversion.outputOf ⟨"o/p".toList⟩ q)).toOption := by decide +kernel
  refine ⟨success, leaves fun p member l lies ⟨q, other, output⟩ => apart p member q other ?_⟩
  rw [lies, output]

end DocComment
