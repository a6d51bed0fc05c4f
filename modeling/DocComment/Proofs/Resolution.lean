import DocComment.Inputs
import DocComment.Proofs.Contents
import Mathlib.Data.List.Forall2

/-! Resolving arguments. What an argument stands for only depends on the tree, so arguments that are all
right contribute their files one after the other, and the first one that is not right stops it. Since the
inputs found are kept in order and in one spelling each, they are settled, up to their spelling, by the
set of files that the arguments stand for. All of this holds for any patterns that keep a few laws. -/
namespace DocComment

/-- What is relied on about patterns. -/
class Patterns.Lawful [Patterns] : Prop where
  /-- The pattern for a directory is right whatever the directory is called. -/
  directory_right (dir : Text) : ∃ paths, read (inDirectory dir) = .ok paths
  /-- No pattern looks into a file. -/
  emptied {pattern : Text} {paths : FileTree → List Path} (right : read pattern = .ok paths) (t : FileTree) :
    paths t.emptied = paths t
  /-- The pattern for a directory leads to what is called like a comment file. -/
  ending {dir : Text} {paths : FileTree → List Path} {t : FileTree} {p : Path} {l : Location}
    (right : read (inDirectory dir) = .ok paths) (found : p ∈ paths t) (located : t.locate p = .ok l) :
    ".xqdoc".toList <:+ Glob.nameOf l
  /-- What the pattern for a directory leads to does not change with a file that is called otherwise. -/
  other {dir : Text} {paths : FileTree → List Path} {t : FileTree} {l : Location}
    (right : read (inDirectory dir) = .ok paths) (free : t.isDirectory l = false)
    (named : ¬ ".xqdoc".toList <:+ Glob.nameOf l) (content : ByteArray) : paths (t.put l (.file content)) = paths t

namespace Inputs

variable {t : FileTree} {arg : Text} {args : List Text} {found paths inputs : List Path} {p q : Path}

/-- Puts paths in their places one after the other. -/
def insertAll (paths found : List Path) : List Path := paths.foldl (fun all p => insert p all) found

theorem insertAll_append (first rest found : List Path) :
    insertAll (first ++ rest) found = insertAll rest (insertAll first found) := List.foldl_append

theorem mem_insertAll (member : q ∈ insertAll paths found) : q ∈ paths ∨ q ∈ found := by
  induction paths generalizing found with
  | nil => exact .inr member
  | cons p paths ih =>
    rcases ih member with later | earlier
    · exact .inl (List.mem_cons_of_mem p later)
    · rcases mem_insert earlier with rfl | earlier
      · exact .inl List.mem_cons_self
      · exact .inr earlier

theorem increasing_insertAll (h : Increasing found) (paths : List Path) : Increasing (insertAll paths found) := by
  induction paths generalizing found with
  | nil => exact h
  | cons p paths ih => exact ih (increasing_insert h p)

/-- A path is among others in some spelling. -/
def Covers (inputs : List Path) (p : Path) : Prop := ∃ q ∈ inputs, p.Same q

theorem covers_insert : Covers (insert p paths) q ↔ q.Same p ∨ Covers paths q := by
  constructor
  · rintro ⟨r, member, same⟩
    rcases mem_insert member with rfl | member
    · exact .inl same
    · exact .inr ⟨r, member, same⟩
  · rintro (same | ⟨r, member, same⟩)
    · obtain ⟨r, member, again⟩ := exists_same_mem_insert p paths
      exact ⟨r, member, Eq.trans same again⟩
    · exact ⟨r, subset_insert p paths member, same⟩

theorem covers_insertAll : Covers (insertAll paths found) q ↔ Covers paths q ∨ Covers found q := by
  induction paths generalizing found with
  | nil => exact (or_iff_right fun ⟨_, member, _⟩ => absurd member List.not_mem_nil).symm
  | cons p paths ih =>
    have first : Covers (p :: paths) q ↔ q.Same p ∨ Covers paths q := by
      simp [Covers]
    rw [insertAll, List.foldl_cons, ← insertAll, ih, covers_insert, first, or_left_comm, or_assoc]

theorem order_congr (same : p.Same q) (r : Path) : r.order p = r.order q := by
  rw [Path.order, Path.order, same]

theorem not_same_of_order (before : p.order q = .lt) : ¬ p.Same q := by
  rw [← Path.order_eq_iff, before]
  exact nofun

/-- Of two lists in order that cover the same, the first paths are the same. -/
theorem head_same {ps qs : List Path} (first : Increasing (p :: ps)) (second : Increasing (q :: qs))
    (here : Covers (q :: qs) p) (there : Covers (p :: ps) q) : p.Same q := by
  obtain ⟨r, member, same⟩ := here
  obtain ⟨s, other, same'⟩ := there
  rcases List.mem_cons.mp member with rfl | member
  · exact same
  rcases List.mem_cons.mp other with rfl | other
  · exact same'.symm
  · have after : q.order p = .lt := (order_congr same q).trans ((List.pairwise_cons.mp second).1 r member)
    have before : p.order q = .lt := (order_congr same' p).trans ((List.pairwise_cons.mp first).1 s other)
    rw [← Path.order_swap, after] at before
    cases before

theorem covers_tail {ps qs : List Path} {r : Path} (first : Increasing (p :: ps)) (same : p.Same q)
    (covers : Covers (p :: ps) r → Covers (q :: qs) r) (covered : Covers ps r) : Covers qs r := by
  obtain ⟨s, member, again⟩ := covered
  obtain ⟨u, other, found⟩ := covers ⟨s, List.mem_cons_of_mem p member, again⟩
  rcases List.mem_cons.mp other with rfl | other
  · have clash : p.Same s := same.trans (found.symm.trans again)
    exact absurd clash (not_same_of_order ((List.pairwise_cons.mp first).1 s member))
  · exact ⟨u, other, found⟩

/-- Inputs in order are settled by what they cover, up to their spelling. -/
theorem forall₂_same {ps qs : List Path} (first : Increasing ps) (second : Increasing qs)
    (covers : ∀ r, Covers ps r ↔ Covers qs r) : List.Forall₂ Path.Same ps qs := by
  have covers_self : ∀ p ps, Covers (p :: ps) p := fun p ps => ⟨p, List.mem_cons_self, rfl⟩
  have nil_covers : ∀ p, ¬ Covers [] p := fun p ⟨_, member, _⟩ => absurd member List.not_mem_nil
  induction ps generalizing qs with
  | nil =>
    cases qs with
    | nil => exact .nil
    | cons q qs => exact absurd ((covers q).mpr (covers_self q qs)) (nil_covers q)
  | cons p ps ih =>
    cases qs with
    | nil => exact absurd ((covers p).mp (covers_self p ps)) (nil_covers p)
    | cons q qs =>
      have same := head_same first second ((covers p).mp (covers_self p ps)) ((covers q).mpr (covers_self q qs))
      refine .cons same (ih (List.pairwise_cons.mp first).2 (List.pairwise_cons.mp second).2 fun r => ?_)
      exact ⟨covers_tail first same (covers r).mp, covers_tail second same.symm (covers r).mpr⟩

section

variable [Patterns]

/-- The argument is neither a file nor a directory, and no pattern either. -/
structure Invalid (t : FileTree) (arg : Text) (cause : Glob.PatternError) : Prop where
  noFile : t.isFile ⟨arg⟩ = false
  noDirectory : t.isDir ⟨arg⟩ = false
  flaw : Patterns.read arg = .error cause

/-- The files that an argument stands for, if it is right. -/
def contributed (t : FileTree) (arg : Text) : List Path :=
  match denoted t arg with
  | .ok paths => paths
  | .error _ => []

theorem contributed_of_isFile (file : t.isFile ⟨arg⟩ = true) : contributed t arg = [⟨arg⟩] := by
  rw [contributed, denoted, if_pos file]

theorem isFile_of_mem_contributed (member : p ∈ contributed t arg) : t.isFile p = true := by
  rw [contributed, denoted] at member
  by_cases file : t.isFile ⟨arg⟩ = true
  · rw [if_pos file] at member
    rwa [List.mem_singleton.mp member]
  · rw [if_neg file] at member
    cases right : Patterns.read (if t.isDir ⟨arg⟩ then Patterns.inDirectory arg else arg) with
    | ok paths =>
      rw [right] at member
      exact (List.mem_filter.mp member).2
    | error flaw =>
      rw [right] at member
      exact absurd member List.not_mem_nil

/-- An argument goes unmatched if it stands for nothing, which a file never does. -/
theorem filter_unmatched (t : FileTree) (args : List Text) :
    args.filter (fun arg => contributed t arg = []) =
      args.filter fun arg => !t.isFile ⟨arg⟩ && decide (contributed t arg = []) := by
  refine List.filter_congr fun arg _ => ?_
  cases file : t.isFile ⟨arg⟩ with
  | false => rfl
  | true =>
    rw [contributed_of_isFile file]
    rfl

/-- Either all arguments are right, or one of them is the first that is wrong. -/
theorem right_or_first_invalid (t : FileTree) (args : List Text) :
    (∀ arg ∈ args, ∀ cause, ¬ Invalid t arg cause) ∨ ∃ before arg after cause,
      args = before ++ arg :: after ∧ (∀ a ∈ before, ∀ c, ¬ Invalid t a c) ∧ Invalid t arg cause := by
  induction args with
  | nil => exact .inl nofun
  | cons arg args ih =>
    by_cases wrong : ∃ cause, Invalid t arg cause
    · obtain ⟨cause, wrong⟩ := wrong
      exact .inr ⟨[], arg, args, cause, rfl, nofun, wrong⟩
    · have right : ∀ cause, ¬ Invalid t arg cause := fun cause h => wrong ⟨cause, h⟩
      rcases ih with all | ⟨before, first, after, cause, rfl, rights, wrong⟩
      · exact .inl (List.forall_mem_cons.mpr ⟨right, all⟩)
      · exact .inr ⟨arg :: before, first, after, cause, rfl, List.forall_mem_cons.mpr ⟨right, rights⟩, wrong⟩

variable [Patterns.Lawful]

/-- Only a pattern of the author's own can be wrong, and not the one made for a directory. -/
theorem denoted_eq_error_iff {cause : Glob.PatternError} :
    denoted t arg = .error cause ↔ Invalid t arg cause := by
  rw [denoted]
  by_cases file : t.isFile ⟨arg⟩ = true
  · rw [if_pos file]
    exact ⟨nofun, fun h => absurd (h.noFile.symm.trans file) Bool.false_ne_true⟩
  rw [if_neg file]
  by_cases directory : t.isDir ⟨arg⟩ = true
  · obtain ⟨paths, right⟩ := Patterns.Lawful.directory_right arg
    rw [if_pos directory, right]
    exact ⟨nofun, fun h => absurd (h.noDirectory.symm.trans directory) Bool.false_ne_true⟩
  rw [if_neg directory]
  have kind := And.intro (Bool.eq_false_iff.mpr file) (Bool.eq_false_iff.mpr directory)
  cases read : Patterns.read arg with
  | ok paths => exact ⟨nofun, fun h => nomatch read.symm.trans h.flaw⟩
  | error flaw =>
    constructor
    · rintro ⟨⟩
      exact ⟨kind.1, kind.2, read⟩
    · intro h
      cases read.symm.trans h.flaw
      rfl

theorem not_invalid_of_isOk (stands : (denoted t arg).isOk = true) (cause : Glob.PatternError) :
    ¬ Invalid t arg cause := by
  intro wrong
  rw [denoted_eq_error_iff.mpr wrong] at stands
  cases stands

theorem denoted_eq_ok (right : ∀ cause, ¬ Invalid t arg cause) : denoted t arg = .ok (contributed t arg) := by
  rw [contributed]
  cases stood : denoted t arg with
  | ok paths => rfl
  | error cause => exact absurd (denoted_eq_error_iff.mp stood) (right cause)

theorem resolve_eq_ok (t : FileTree) (found : List Path) (right : ∀ arg ∈ args, ∀ cause, ¬ Invalid t arg cause) :
    resolve t found args = (args.filter fun arg => contributed t arg = [],
      .ok (insertAll (args.flatMap (contributed t)) found)) := by
  induction args generalizing found with
  | nil => rfl
  | cons arg args ih =>
    have rest := ih (insertAll (contributed t arg) found) fun a member => right a (List.mem_cons_of_mem arg member)
    rw [insertAll] at rest
    rw [resolve, denoted_eq_ok (right arg List.mem_cons_self), List.flatMap_cons, insertAll_append]
    dsimp only
    rw [rest]
    by_cases barren : contributed t arg = []
    · simp [barren, insertAll]
    · simp [barren, insertAll]

theorem resolve_eq_error {before : List Text} {cause : Glob.PatternError} (t : FileTree) (found : List Path)
    (right : ∀ arg ∈ before, ∀ cause, ¬ Invalid t arg cause) (wrong : Invalid t arg cause) (after : List Text) :
    resolve t found (before ++ arg :: after) =
      (before.filter fun arg => contributed t arg = [], .error ⟨arg, cause⟩) := by
  induction before generalizing found with
  | nil => rw [List.nil_append, resolve, denoted_eq_error_iff.mpr wrong, List.filter_nil]
  | cons first before ih =>
    have rest := ih (insertAll (contributed t first) found)
      fun a member => right a (List.mem_cons_of_mem first member)
    rw [insertAll] at rest
    rw [List.cons_append, resolve, denoted_eq_ok (right first List.mem_cons_self)]
    dsimp only
    rw [rest]
    by_cases barren : contributed t first = []
    · simp [barren]
    · simp [barren]

theorem resolve_ok_iff : (resolve t found args).2 = .ok inputs ↔
    (∀ arg ∈ args, ∀ cause, ¬ Invalid t arg cause) ∧
      inputs = insertAll (args.flatMap (contributed t)) found := by
  rcases right_or_first_invalid t args with right | ⟨before, arg, after, cause, rfl, rights, wrong⟩
  · rw [resolve_eq_ok t found right, Except.ok.injEq]
    exact ⟨fun same => ⟨right, same.symm⟩, fun h => h.2.symm⟩
  · rw [resolve_eq_error t found rights wrong after]
    have inside : arg ∈ before ++ arg :: after := List.mem_append_right before List.mem_cons_self
    exact ⟨nofun, fun h => absurd wrong (h.1 arg inside cause)⟩

/-- Every input is a file. -/
theorem isFile_of_mem_resolved (done : (resolve t [] args).2 = .ok inputs) (member : p ∈ inputs) :
    t.isFile p = true := by
  obtain ⟨_, rfl⟩ := resolve_ok_iff.mp done
  obtain ⟨arg, _, stood⟩ := List.mem_flatMap.mp ((mem_insertAll member).resolve_right List.not_mem_nil)
  exact isFile_of_mem_contributed stood

theorem increasing_resolve (h : Increasing found) (done : (resolve t found args).2 = .ok inputs) :
    Increasing inputs := by
  obtain ⟨_, rfl⟩ := resolve_ok_iff.mp done
  exact increasing_insertAll h _

theorem denoted_emptied (t : FileTree) (arg : Text) : denoted t.emptied arg = denoted t arg := by
  rw [denoted, denoted, FileTree.isFile_emptied, FileTree.isDir_emptied]
  cases right : Patterns.read (if t.isDir ⟨arg⟩ then Patterns.inDirectory arg else arg) with
  | error flaw => rfl
  | ok paths =>
    have same : (paths t.emptied).filter t.emptied.isFile = (paths t).filter t.isFile := by
      rw [Patterns.Lawful.emptied right]
      exact List.filter_congr fun p _ => FileTree.isFile_emptied t p
    simp only [bind, Except.bind, same]

/-- Arguments are resolved without a look into any file. -/
theorem resolve_emptied (t : FileTree) (found : List Path) (args : List Text) :
    resolve t.emptied found args = resolve t found args := by
  induction args generalizing found with
  | nil => rfl
  | cons arg args ih =>
    rw [resolve, resolve, denoted_emptied]
    simp only [ih]

end
end Inputs
end DocComment
