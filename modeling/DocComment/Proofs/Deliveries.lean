import DocComment.Proofs.Conversions

/-! Runs without the session that serves them. A run over inputs delivers them one after the other, up to
the first that fails, and a delivery that fails changes nothing. What shows on the error output comes down
to the arguments without a file and the failure. -/
namespace DocComment

/-- A line for each argument that no file was found for. -/
def warningLines (args : List Text) : Text :=
  args.flatMap fun arg => "warning: no files matched: ".toList ++ arg ++ ['\n']

/-- What has failed, and what that was caused by. -/
def errorLines (context : Text) (cause : Option Text) : Text :=
  "Error: ".toList ++ context ++ ['\n'] ++
    cause.toList.flatMap fun cause => "\nCaused by:\n    ".toList ++ cause ++ ['\n']

theorem Failure.report_eq (f : Failure) : f.report = errorLines f.context f.cause? := by
  unfold report errorLines
  cases f.cause? with
  | none => rfl
  | some cause => rw [Option.toList_some, List.flatMap_singleton]

theorem Outcome.stderr_eq (o : Outcome) : o.stderr =
    warningLines o.unmatched ++ o.failure.toList.flatMap fun f => errorLines f.context f.cause? := by
  rw [stderr, warningLines]
  cases o.failure with
  | none => rfl
  | some f =>
    rw [Option.toList_some, List.flatMap_singleton, ← f.report_eq]
    rfl

namespace FileTree

variable {t : FileTree} {p : Path} {l : Location}

theorem isFile_iff : t.isFile p = true ↔ ∃ l content, t.find p = .ok (l, .file content) := by
  rw [isFile]
  split
  · next l content found => exact ⟨fun _ => ⟨l, content, found⟩, fun _ => rfl⟩
  · next other => exact ⟨nofun, fun ⟨l, content, found⟩ => absurd found (other l content)⟩

/-- A file can be found, so all that can be wrong with it is its content. -/
theorem read_error_of_isFile {e : FileError} (file : t.isFile p = true) (failed : t.read p = .error e) :
    e = .notUtf8 := by
  obtain ⟨l, content, found⟩ := isFile_iff.mp file
  rw [read, found] at failed
  cases decoded : String.fromUTF8? content with
  | none =>
    simp only [bind, Except.bind, decoded] at failed
    exact (Except.error.inj failed).symm
  | some s =>
    simp only [bind, Except.bind, decoded] at failed
    cases failed

/-- Writing a file leaves every other file a file. -/
theorem isFile_put (free : t.isDirectory l = false) (content : ByteArray) (file : t.isFile p = true) :
    (t.put l (.file content)).isFile p = true := by
  obtain ⟨k, old, found⟩ := isFile_iff.mp file
  obtain ⟨located, here, plain⟩ := find_file_iff.mp found
  have located' := (WrittenAt.put free content).locate_iff.mpr located
  by_cases same : k = l
  · refine isFile_iff.mpr ⟨k, content, find_file_iff.mpr ⟨located', ?_, plain⟩⟩
    rw [get?_put t (ne_root free), if_pos same]
  · refine isFile_iff.mpr ⟨k, old, find_file_iff.mpr ⟨located', ?_, plain⟩⟩
    rw [get?_put t (ne_root free), if_neg same, here]

end FileTree

namespace Conversion

open FileTree

variable {m : Markup} {dir : Path} {t t' : FileTree} {c : Conversion} {input p : Path}
  {inputs before after : List Path} {f : Failure}

/-- Processes inputs in turn, all of them completely. -/
def deliverAll (m : Markup) (dir : Path) (t : FileTree) (inputs : List Path) : Except Failure FileTree :=
  inputs.foldlM (deliver m dir) t

theorem deliverAll_cons_ok_iff : deliverAll m dir t (input :: inputs) = .ok t' ↔
    ∃ first, deliver m dir t input = .ok first ∧ deliverAll m dir first inputs = .ok t' := by
  rw [deliverAll, List.foldlM_cons]
  cases deliver m dir t input with
  | error f => exact ⟨nofun, fun ⟨_, done, _⟩ => nomatch done⟩
  | ok first => exact ⟨fun done => ⟨first, rfl, done⟩, fun ⟨_, same, done⟩ => Except.ok.inj same ▸ done⟩

theorem convertAll_append (rest : List Path)
    (done : deliverAll c.session.markup dir c.tree before = .ok t) : ∃ c' : Conversion,
    c'.tree = t ∧ c'.session.markup = c.session.markup ∧
      c.convertAll dir (before ++ rest) = c'.convertAll dir rest := by
  induction before generalizing c with
  | nil => exact ⟨c, Except.ok.inj done, rfl, rfl⟩
  | cons input before ih =>
    obtain ⟨first, delivered, done⟩ := deliverAll_cons_ok_iff.mp done
    obtain ⟨c', markup, converted⟩ := convert_eq c dir input
    rw [delivered] at converted
    obtain ⟨converted, rfl⟩ := converted
    rw [← markup] at done
    obtain ⟨c'', tree, again, same⟩ := ih done
    refine ⟨c'', tree, again.trans markup, ?_⟩
    rw [List.cons_append, convertAll, converted]
    exact same

theorem convertAll_of_delivered (done : deliverAll c.session.markup dir c.tree inputs = .ok t) :
    ∃ c', c.convertAll dir inputs = (c', none) ∧ c'.tree = t := by
  obtain ⟨c', tree, _, same⟩ := convertAll_append [] done
  rw [List.append_nil] at same
  exact ⟨c', same, tree⟩

/-- A run stops at the first input that cannot be delivered, with the tree as it was before that input. -/
theorem convertAll_of_failed (after : List Path)
    (done : deliverAll c.session.markup dir c.tree before = .ok t)
    (failed : deliver c.session.markup dir t input = .error f) :
    ∃ c', c.convertAll dir (before ++ input :: after) = (c', some f) ∧ c'.tree = t := by
  obtain ⟨c', rfl, markup, same⟩ := convertAll_append (input :: after) done
  obtain ⟨last, _, converted⟩ := convert_eq c' dir input
  rw [markup, failed] at converted
  obtain ⟨converted, kept⟩ := converted
  refine ⟨last, ?_, kept⟩
  rw [same, convertAll, converted]

theorem deliverAll_or_first_failed (m : Markup) (dir : Path) (t : FileTree) (inputs : List Path) :
    (∃ t', deliverAll m dir t inputs = .ok t') ∨ ∃ before input after t' f,
      inputs = before ++ input :: after ∧ deliverAll m dir t before = .ok t' ∧
        deliver m dir t' input = .error f := by
  induction inputs generalizing t with
  | nil => exact .inl ⟨t, rfl⟩
  | cons input inputs ih =>
    cases first : deliver m dir t input with
    | error f => exact .inr ⟨[], input, inputs, t, f, rfl, rfl, first⟩
    | ok next =>
      rcases ih next with ⟨t', done⟩ | ⟨before, failing, after, t', f, rfl, done, failed⟩
      · exact .inl ⟨t', deliverAll_cons_ok_iff.mpr ⟨next, first, done⟩⟩
      · exact .inr ⟨input :: before, failing, after, t', f, rfl,
          deliverAll_cons_ok_iff.mpr ⟨next, first, done⟩, failed⟩

theorem isFile_of_delivered (file : t.isFile p = true) (done : deliverAll m dir t inputs = .ok t') :
    t'.isFile p = true := by
  induction inputs generalizing t with
  | nil =>
    cases done
    exact file
  | cons input inputs ih =>
    obtain ⟨first, delivered, done⟩ := deliverAll_cons_ok_iff.mp done
    obtain ⟨comment, l, _, _, free, rfl⟩ := deliver_ok delivered
    exact ih (isFile_put free _ file) done

end Conversion

section Stages

variable [Patterns] {m : Markup} {out : Text} {tree made t : FileTree} {files unmatched : List Text}
  {inputs before after : List Path} {input : Path} {f : Failure}

theorem Options.run_files {o : Options} (output : o.output = some out) (given : o.files ≠ []) (stdin : ByteArray) :
    o.run tree stdin = runFiles (.xml o.ns) (some out) tree o.files := by
  rw [run, if_neg given, output]

theorem runFiles_not_created {e : FileError} (failed : tree.createDir ⟨out⟩ = (made, .error e)) :
    runFiles m (some out) tree files = { tree := made, failure := some (.createOutput ⟨out⟩ e) } := by
  rw [runFiles, failed]

theorem runFiles_not_resolved {cause : Inputs.InvalidPattern} (created : tree.createDir ⟨out⟩ = (made, .ok ()))
    (failed : Inputs.resolve made [] files = (unmatched, .error cause)) :
    runFiles m (some out) tree files = { tree := made, unmatched, failure := some (.pattern cause) } := by
  simp only [runFiles, created, failed]

/-- The warnings of a run are those that came up while its arguments were resolved. -/
theorem runFiles_unmatched (created : tree.createDir ⟨out⟩ = (made, .ok ())) :
    (runFiles m (some out) tree files).unmatched = (Inputs.resolve made [] files).1 := by
  simp only [runFiles, created]
  cases Inputs.resolve made [] files with
  | mk unmatched answer => cases answer <;> rfl

/-- Once the inputs are known, all that is left is to convert them. -/
theorem runFiles_resolved (created : tree.createDir ⟨out⟩ = (made, .ok ()))
    (resolved : (Inputs.resolve made [] files).2 = .ok inputs) : ∃ c f,
    ({ tree := made, session := { markup := m } } : Conversion).convertAll ⟨out⟩ inputs = (c, f) ∧
      (runFiles m (some out) tree files).failure = f ∧ (runFiles m (some out) tree files).tree = c.tree := by
  cases known : Inputs.resolve made [] files with
  | mk unmatched answer =>
    rw [known] at resolved
    subst resolved
    simp only [runFiles, created, known]
    exact ⟨_, _, rfl, rfl, rfl⟩

theorem runFiles_delivered (created : tree.createDir ⟨out⟩ = (made, .ok ()))
    (resolved : (Inputs.resolve made [] files).2 = .ok inputs)
    (done : Conversion.deliverAll m ⟨out⟩ made inputs = .ok t) :
    (runFiles m (some out) tree files).failure = none ∧ (runFiles m (some out) tree files).tree = t := by
  obtain ⟨c, f, converted, failure, left⟩ := runFiles_resolved (m := m) created resolved
  obtain ⟨c', converted', rfl⟩ := Conversion.convertAll_of_delivered
    (c := { tree := made, session := { markup := m } }) done
  cases converted.symm.trans converted'
  exact ⟨failure, left⟩

/-- A run stops at the first input that cannot be delivered. -/
theorem runFiles_not_delivered (created : tree.createDir ⟨out⟩ = (made, .ok ()))
    (resolved : (Inputs.resolve made [] files).2 = .ok (before ++ input :: after))
    (done : Conversion.deliverAll m ⟨out⟩ made before = .ok t)
    (failed : Conversion.deliver m ⟨out⟩ t input = .error f) :
    (runFiles m (some out) tree files).failure = some f ∧ (runFiles m (some out) tree files).tree = t := by
  obtain ⟨c, f', converted, failure, left⟩ := runFiles_resolved (m := m) created resolved
  obtain ⟨c', converted', rfl⟩ := Conversion.convertAll_of_failed
    (c := { tree := made, session := { markup := m } }) after done failed
  cases converted.symm.trans converted'
  exact ⟨failure, left⟩

end Stages
end DocComment
