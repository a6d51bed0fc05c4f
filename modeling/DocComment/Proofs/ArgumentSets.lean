import DocComment.Proofs.FailingRuns
import DocComment.Proofs.FileRuns

/-! Arguments as a set. A path names its location by its components alone, so two spellings of a file
are read alike and written to the same output. With the inputs settled up to their spelling, neither the
order of the arguments nor their repetition shows in what a run leaves. -/
namespace DocComment

namespace Path

theorem stem_congr {p q : Path} (same : p.Same q) : p.stem = q.stem := by rw [stem, stem, same]

end Path

namespace FileTree

variable {t : FileTree} {p q : Path}

/-- Two spellings of a file. -/
structure Spellings (t : FileTree) (p q : Path) : Prop where
  same : p.Same q
  first : t.isFile p = true
  second : t.isFile q = true

theorem Spellings.find (h : Spellings t p q) : t.find p = t.find q := by
  obtain ⟨l, content, found⟩ := isFile_iff.mp h.first
  obtain ⟨k, content', found'⟩ := isFile_iff.mp h.second
  obtain ⟨located, here, _⟩ := find_file_iff.mp found
  obtain ⟨located', there, _⟩ := find_file_iff.mp found'
  have place : l = k := by
    rw [locate_ok_eq located, locate_ok_eq located', Path.target, Path.target, h.same]
  subst place
  cases here.symm.trans there
  rw [found, found']

theorem Spellings.read (h : Spellings t p q) : t.read p = t.read q := by
  rw [FileTree.read, FileTree.read, h.find]

end FileTree

namespace Conversion

open FileTree

variable {m : Markup} {dir p q : Path} {t t' : FileTree} {c d : Conversion} {ps qs : List Path}

theorem deliver_spellings (h : Spellings t p q) :
    deliver m dir t p = .ok t' ↔ deliver m dir t q = .ok t' := by
  have output : outputOf dir p = outputOf dir q := by rw [outputOf, outputOf, Path.stem_congr h.same]
  rw [deliver, deliver, h.read, output]
  cases t.read q with
  | error e => simp only [reduceCtorEq]
  | ok comment =>
    dsimp only
    cases t.write (outputOf dir q) (render m comment ++ ['\n']) with
    | error e => simp only [reduceCtorEq]
    | ok t => exact Iff.rfl

theorem spellings_delivered {input : Path} (done : deliver m dir t input = .ok t') (h : Spellings t p q) :
    Spellings t' p q := by
  obtain ⟨comment, l, _, _, free, rfl⟩ := deliver_ok done
  exact ⟨h.same, isFile_put free _ h.first, isFile_put free _ h.second⟩

/-- Two runs over the same files in other spellings go together until they end. -/
theorem convertAll_spellings (dir : Path) (inputs : List.Forall₂ (Spellings c.tree) ps qs) (tree : c.tree = d.tree)
    (markup : c.session.markup = d.session.markup) :
    (c.convertAll dir ps).1.tree = (d.convertAll dir qs).1.tree ∧
      (c.convertAll dir ps).2.isSome = (d.convertAll dir qs).2.isSome := by
  induction ps generalizing qs c d with
  | nil =>
    cases inputs
    exact ⟨tree, rfl⟩
  | cons p ps ih =>
    obtain ⟨q, qs, same, rest, rfl⟩ := List.forall₂_cons_left_iff.mp inputs
    obtain ⟨c', markup', converted⟩ := convert_eq c dir p
    obtain ⟨d', markup'', converted'⟩ := convert_eq d dir q
    rw [← markup, ← tree] at converted'
    rw [convertAll, convertAll]
    cases delivered : deliver c.session.markup dir c.tree p with
    | ok t =>
      rw [delivered] at converted
      rw [(deliver_spellings same).mp delivered] at converted'
      obtain ⟨converted, rfl⟩ := converted
      obtain ⟨converted', again⟩ := converted'
      rw [converted, converted']
      have rest := rest.imp fun _ _ => spellings_delivered delivered
      exact ih rest again.symm (markup'.trans (markup.trans markup''.symm))
    | error f =>
      rw [delivered] at converted
      cases delivered' : deliver c.session.markup dir c.tree q with
      | ok t' => cases delivered.symm.trans ((deliver_spellings same).mpr delivered')
      | error f' =>
        rw [delivered'] at converted'
        rw [converted.1, converted'.1]
        exact ⟨converted.2.trans converted'.2.symm, rfl⟩

end Conversion

namespace Inputs

theorem pairwise_not_same {paths : List Path} (h : Increasing paths) : paths.Pairwise fun p q => ¬ p.Same q :=
  h.imp not_same_of_order

variable [Patterns] {t : FileTree} {xs ys : List Text} {p : Path}

theorem covers_flatMap_iff : Covers (xs.flatMap (contributed t)) p ↔ ∃ arg ∈ xs, Covers (contributed t arg) p := by
  constructor
  · rintro ⟨q, member, same⟩
    obtain ⟨arg, given, stood⟩ := List.mem_flatMap.mp member
    exact ⟨arg, given, q, stood, same⟩
  · rintro ⟨arg, given, q, stood, same⟩
    exact ⟨q, List.mem_flatMap.mpr ⟨arg, given, stood⟩, same⟩

variable [Patterns.Lawful]

theorem covers_resolved {inputs : List Path} (done : (resolve t [] xs).2 = .ok inputs) :
    Covers inputs p ↔ ∃ arg ∈ xs, Covers (contributed t arg) p := by
  obtain ⟨_, rfl⟩ := resolve_ok_iff.mp done
  rw [covers_insertAll, covers_flatMap_iff]
  exact or_iff_left fun ⟨_, member, _⟩ => absurd member List.not_mem_nil

/-- Resolved inputs are those of the arguments, each in one spelling, wherever in the list they stand. -/
theorem spellings_resolved {ps qs : List Path} (first : (resolve t [] xs).2 = .ok ps)
    (second : (resolve t [] ys).2 = .ok qs)
    (same : ∀ r, (∃ arg ∈ xs, Covers (contributed t arg) r) ↔ ∃ arg ∈ ys, Covers (contributed t arg) r) :
    List.Forall₂ t.Spellings ps qs := by
  have alike := forall₂_same (increasing_resolve .nil first) (increasing_resolve .nil second)
    fun r => (covers_resolved first).trans ((same r).trans (covers_resolved second).symm)
  refine List.forall₂_iff_get.mpr ⟨alike.length_eq, fun i here there => ?_⟩
  exact ⟨alike.get here there, isFile_of_mem_resolved first (List.get_mem _ _),
    isFile_of_mem_resolved second (List.get_mem _ _)⟩

/-- What two lists of arguments stand for together: `first` and `second` are what each stands for. -/
structure Unites (t : FileTree) (args : List Text) (first second all : List Path) : Prop where
  resolved : (resolve t [] args).2 = .ok all
  covers : ∀ p, Covers all p ↔ Covers first p ∨ Covers second p
  increasing : Increasing all
  distinct : all.Pairwise fun p q => ¬ p.Same q
  /-- One warning for each argument that is no file and stands for none, in the order of the arguments. -/
  unmatched : (resolve t [] args).1 =
    args.filter fun arg => !t.isFile ⟨arg⟩ && decide (contributed t arg = [])

theorem resolve_append (t : FileTree) (right : ∀ arg ∈ xs ++ ys, ∀ cause, ¬ Invalid t arg cause) :
    ∃ first second all, (resolve t [] xs).2 = .ok first ∧ (resolve t [] ys).2 = .ok second ∧
      Unites t (xs ++ ys) first second all := by
  have first := resolve_eq_ok t [] fun arg given => right arg (List.mem_append_left ys given)
  have second := resolve_eq_ok t [] fun arg given => right arg (List.mem_append_right xs given)
  have all := resolve_eq_ok t [] right
  have resolved := congrArg Prod.snd all
  refine ⟨_, _, _, congrArg Prod.snd first, congrArg Prod.snd second, resolved, fun p => ?_,
    increasing_resolve .nil resolved, pairwise_not_same (increasing_resolve .nil resolved), ?_⟩
  · rw [covers_resolved resolved, covers_resolved (congrArg Prod.snd first),
      covers_resolved (congrArg Prod.snd second)]
    simp only [List.mem_append, or_and_right, exists_or]
  · rw [all, filter_unmatched]

end Inputs

/-- What two runs have in common that end in the same way. -/
structure Outcome.EndsAs (o o' : Outcome) : Prop where
  exitCode : o.exitCode = o'.exitCode
  tree : o.tree = o'.tree

section

variable [Patterns]

theorem runFiles_spellings {m : Markup} {out : Text} {tree made : FileTree} {xs ys : List Text} {ps qs : List Path}
    (created : tree.createDir ⟨out⟩ = (made, .ok ())) (first : (Inputs.resolve made [] xs).2 = .ok ps)
    (second : (Inputs.resolve made [] ys).2 = .ok qs) (alike : List.Forall₂ made.Spellings ps qs) :
    (runFiles m (some out) tree xs).EndsAs (runFiles m (some out) tree ys) := by
  obtain ⟨c, f, converted, failure, left⟩ := runFiles_resolved (m := m) created first
  obtain ⟨d, g, converted', failure', left'⟩ := runFiles_resolved (m := m) created second
  obtain ⟨trees, failures⟩ := Conversion.convertAll_spellings
    (c := { tree := made, session := { markup := m } }) ⟨out⟩ alike rfl rfl
  rw [converted, converted'] at trees failures
  refine ⟨?_, left.trans (trees.trans left'.symm)⟩
  rw [Outcome.exitCode, Outcome.exitCode, failure, failure', failures]

variable [Patterns.Lawful]

/-- Wherever the wrong argument stands, nothing but the output directory is made. -/
theorem runFiles_of_invalid {m : Markup} {out arg : Text} {tree made : FileTree} {xs : List Text}
    {cause : Glob.PatternError} (created : tree.createDir ⟨out⟩ = (made, .ok ())) (given : arg ∈ xs)
    (wrong : Inputs.Invalid made arg cause) :
    (runFiles m (some out) tree xs).exitCode = 1 ∧ (runFiles m (some out) tree xs).tree = made := by
  rcases Inputs.right_or_first_invalid made xs with right | ⟨before, first, after, flaw, rfl, right, flawed⟩
  · exact absurd wrong (right arg given cause)
  · rw [runFiles_not_resolved created (Inputs.resolve_eq_error made [] right flawed after)]
    exact ⟨rfl, rfl⟩

theorem runFiles_same_set (m : Markup) (output : Option Text) (tree : FileTree) {xs ys : List Text}
    (same : ∀ arg, arg ∈ xs ↔ arg ∈ ys) : (runFiles m output tree xs).EndsAs (runFiles m output tree ys) := by
  cases output with
  | none => exact ⟨rfl, rfl⟩
  | some out =>
    cases created : tree.createDir ⟨out⟩ with
    | mk made answer =>
      cases answer with
      | error e =>
        rw [runFiles_not_created created, runFiles_not_created created]
        exact ⟨rfl, rfl⟩
      | ok _ =>
        rcases Inputs.right_or_first_invalid made xs with right | ⟨before, arg, after, cause, split, _, wrong⟩
        · have right' : ∀ arg ∈ ys, ∀ cause, ¬ Inputs.Invalid made arg cause := fun arg given =>
            right arg ((same arg).mpr given)
          have first := congrArg Prod.snd (Inputs.resolve_eq_ok made [] right)
          have second := congrArg Prod.snd (Inputs.resolve_eq_ok made [] right')
          refine runFiles_spellings created first second (Inputs.spellings_resolved first second fun r => ?_)
          exact exists_congr fun arg => and_congr_left fun _ => same arg
        · have given : arg ∈ xs := split ▸ List.mem_append_right before List.mem_cons_self
          obtain ⟨code, left⟩ := runFiles_of_invalid (m := m) created given wrong
          obtain ⟨code', left'⟩ := runFiles_of_invalid (m := m) created ((same arg).mp given) wrong
          exact ⟨code.trans code'.symm, left.trans left'.symm⟩

/-- Neither the order of the arguments nor their repetition shows in how a run ends. -/
theorem run_same_set (o : Options) {files : List Text} (same : ∀ arg, arg ∈ files ↔ arg ∈ o.files)
    (tree : FileTree) (stdin : ByteArray) :
    (Options.run { o with files } tree stdin).EndsAs (o.run tree stdin) := by
  have absent : files = [] ↔ o.files = [] := by simp only [List.eq_nil_iff_forall_not_mem, same]
  by_cases stdinOnly : o.files = []
  · rw [Options.run, Options.run, if_pos stdinOnly, if_pos (absent.mpr stdinOnly)]
    exact ⟨rfl, rfl⟩
  · rw [Options.run, Options.run, if_neg stdinOnly, if_neg (mt absent.mp stdinOnly)]
    exact runFiles_same_set _ o.output tree same

/-- A run whose arguments are all right warns of each that is no file and stands for none, in their order. -/
theorem run_warns {o : Options} {out : Text} {tree made : FileTree} (output : o.output = some out)
    (given : o.files ≠ []) (created : tree.createDir ⟨out⟩ = (made, .ok ()))
    (right : ∀ arg ∈ o.files, ∀ cause, ¬ Inputs.Invalid made arg cause) (stdin : ByteArray) :
    (o.run tree stdin).stderr =
      warningLines (o.files.filter fun arg => !made.isFile ⟨arg⟩ && decide (Inputs.contributed made arg = [])) ++
        (o.run tree stdin).failure.toList.flatMap fun f => errorLines f.context f.cause? := by
  rw [Outcome.stderr_eq, Options.run_files output given, runFiles_unmatched created,
    Inputs.resolve_eq_ok made [] right, Inputs.filter_unmatched]

/-- Arguments count as a set: runs end alike on any two lists of the same arguments, and unless one of
them is wrong, two lists together stand for what each of them stands for. In front of the failure, if there
is one, a run shows a warning for each argument that is no file and stands for none. -/
theorem arguments_form_set :
    (∀ (o : Options) (files : List Text) (tree : FileTree) (stdin : ByteArray),
      (∀ arg, arg ∈ files ↔ arg ∈ o.files) →
        (Options.run { o with files } tree stdin).EndsAs (o.run tree stdin)) ∧
    (∀ (t : FileTree) (xs ys : List Text), (∀ arg ∈ xs ++ ys, ∀ cause, ¬ Inputs.Invalid t arg cause) →
      ∃ first second all, (Inputs.resolve t [] xs).2 = .ok first ∧ (Inputs.resolve t [] ys).2 = .ok second ∧
        Inputs.Unites t (xs ++ ys) first second all) ∧
    ∀ (o : Options) (out : Text) (tree made : FileTree) (stdin : ByteArray), o.output = some out → o.files ≠ [] →
      tree.createDir ⟨out⟩ = (made, .ok ()) → (∀ arg ∈ o.files, ∀ cause, ¬ Inputs.Invalid made arg cause) →
        (o.run tree stdin).stderr =
          warningLines (o.files.filter fun arg => !made.isFile ⟨arg⟩ && decide (Inputs.contributed made arg = [])) ++
            (o.run tree stdin).failure.toList.flatMap fun f => errorLines f.context f.cause? := by
  refine ⟨fun o _ tree stdin same => run_same_set o same tree stdin, fun t _ _ right => ?_, ?_⟩
  · exact Inputs.resolve_append t right
  · exact fun o out tree made stdin output given created right => run_warns output given created right stdin

end

/-- A name and a directory that stand for nothing, and a comment that is no text. -/
def fruitless : Options where
  files := ["y".toList, "o".toList, "b.q".toList, "y".toList]
  output := some "o".toList

/-- The arguments of a run turned around, two lists that have a file in common, and a run that warns and fails. -/
theorem arguments_form_set_swapped :
    (∀ arg, arg ∈ ["d/x.q".toList, "x.q".toList, "d/x.q".toList] ↔ arg ∈ bothInputs.files) ∧
    (Options.run { bothInputs with files := ["d/x.q".toList, "x.q".toList, "d/x.q".toList] } twoInputs
      .empty).EndsAs (bothInputs.run twoInputs .empty) ∧
    Inputs.Unites twoInputs ["x.q".toList, "y".toList, "d//x.q".toList, "./x.q".toList, "d/x.q".toList]
      [⟨"x.q".toList⟩] [⟨"./x.q".toList⟩, ⟨"d//x.q".toList⟩]
      [⟨"./x.q".toList⟩, ⟨"d//x.q".toList⟩, ⟨"x.q".toList⟩] ∧
    (fruitless.run unreadableSecond .empty).stderr = "warning: no files matched: y\n".toList ++
      "warning: no files matched: o\n".toList ++ "warning: no files matched: y\n".toList ++
      "Error: failed to read b.q\n\nCaused by:\n    stream did not contain valid UTF-8\n".toList := by
  have same : ∀ arg, arg ∈ ["d/x.q".toList, "x.q".toList, "d/x.q".toList] ↔ arg ∈ bothInputs.files := by
    intro arg
    simp only [bothInputs, List.mem_cons, List.not_mem_nil]
    tauto
  have right : ∀ arg ∈ ["x.q".toList, "y".toList] ++ ["d//x.q".toList, "./x.q".toList, "d/x.q".toList],
      ∀ cause, ¬ Inputs.Invalid twoInputs arg cause := by
    have stands : ∀ arg ∈ ["x.q".toList, "y".toList] ++ ["d//x.q".toList, "./x.q".toList, "d/x.q".toList],
        (Inputs.denoted twoInputs arg).isOk = true := by decide +kernel
    exact fun arg given => Inputs.not_invalid_of_isOk (stands arg given)
  have right' : ∀ arg ∈ fruitless.files, ∀ cause,
      ¬ Inputs.Invalid (unreadableSecond.createDir ⟨"o".toList⟩).1 arg cause := by
    have stands : ∀ arg ∈ fruitless.files,
        (Inputs.denoted (unreadableSecond.createDir ⟨"o".toList⟩).1 arg).isOk = true := by decide +kernel
    exact fun arg given => Inputs.not_invalid_of_isOk (stands arg given)
  have created : unreadableSecond.createDir ⟨"o".toList⟩ = ((unreadableSecond.createDir ⟨"o".toList⟩).1, .ok ()) :=
    Prod.ext rfl (by decide +kernel)
  obtain ⟨ends, unites, warns⟩ := arguments_form_set
  obtain ⟨first, second, all, resolved, resolved', united⟩ := unites twoInputs _ _ right
  have once : (Inputs.resolve twoInputs [] ["x.q".toList, "y".toList]).2 = .ok [⟨"x.q".toList⟩] := by
    decide +kernel
  have twice : (Inputs.resolve twoInputs [] ["d//x.q".toList, "./x.q".toList, "d/x.q".toList]).2 =
      .ok [⟨"./x.q".toList⟩, ⟨"d//x.q".toList⟩] := by decide +kernel
  have three : (Inputs.resolve twoInputs [] (["x.q".toList, "y".toList] ++
      ["d//x.q".toList, "./x.q".toList, "d/x.q".toList])).2 =
      .ok [⟨"./x.q".toList⟩, ⟨"d//x.q".toList⟩, ⟨"x.q".toList⟩] := by decide +kernel
  cases resolved.symm.trans once
  cases resolved'.symm.trans twice
  cases united.resolved.symm.trans three
  have failure : (fruitless.run unreadableSecond .empty).failure = some (.read ⟨"b.q".toList⟩ .notUtf8) := by
    decide +kernel
  have unmatched : (fruitless.files.filter fun arg => !(unreadableSecond.createDir ⟨"o".toList⟩).1.isFile ⟨arg⟩ &&
      decide (Inputs.contributed (unreadableSecond.createDir ⟨"o".toList⟩).1 arg = [])) =
      ["y".toList, "o".toList, "y".toList] := by decide +kernel
  refine ⟨same, ends bothInputs _ twoInputs .empty same, united, ?_⟩
  rw [warns fruitless _ unreadableSecond _ .empty rfl (List.cons_ne_nil _ _) created right', failure, unmatched]
  decide +kernel

end DocComment
