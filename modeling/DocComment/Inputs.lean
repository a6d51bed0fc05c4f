import DocComment.Glob.Expand

/-! The inputs that the arguments of a command stand for: each path once, in the order of paths, in
the spelling that came up first. Arguments can be patterns, and what patterns stand for is an interface,
with `Glob` behind it. -/
namespace DocComment

/-- A language of patterns for paths. -/
class Patterns where
  /-- The pattern that stands for a text as it is. -/
  escape : Text → Text
  /-- The paths in a tree that a pattern stands for, unless it is wrong. -/
  read : Text → Except Glob.PatternError (FileTree → List Path)

instance Glob.patterns : Patterns where
  escape := escape
  read pattern := (parse pattern).map paths

/-- The pattern for the comment files in a directory. -/
def Patterns.inDirectory [Patterns] (dir : Text) : Text := escape dir ++ "/*.xqdoc".toList

namespace Inputs

/-- Puts a path in its place unless it is there already in some spelling. -/
def insert (p : Path) : List Path → List Path
  | [] => [p]
  | q :: rest =>
    match p.order q with
    | .lt => p :: q :: rest
    | .eq => q :: rest
    | .gt => q :: insert p rest

/-- What an argument stands for: a file for itself, a directory for the comment files directly in
it, and anything else for the files that it fits as a pattern. -/
def denoted [Patterns] (t : FileTree) (arg : Text) : Except Glob.PatternError (List Path) :=
  if t.isFile ⟨arg⟩ then .ok [⟨arg⟩]
  else do
    let paths ← Patterns.read (if t.isDir ⟨arg⟩ then Patterns.inDirectory arg else arg)
    return (paths t).filter t.isFile

structure InvalidPattern where
  pattern : Text
  cause : Glob.PatternError
deriving DecidableEq, Repr

/-- The inputs for a list of arguments, on top of those found so far, next to the arguments for
which no file was found. It stops at the first argument that is no pattern. -/
def resolve [Patterns] (t : FileTree) (found : List Path) :
    List Text → List Text × Except InvalidPattern (List Path)
  | [] => ([], .ok found)
  | arg :: args =>
    match denoted t arg with
    | .error cause => ([], .error ⟨arg, cause⟩)
    | .ok paths =>
      let (unmatched, inputs) := resolve t (paths.foldl (fun all p => insert p all) found) args
      (if paths = [] then arg :: unmatched else unmatched, inputs)

def Increasing (paths : List Path) : Prop := paths.Pairwise fun p q => p.order q = .lt

theorem mem_insert {p q : Path} {paths : List Path} (h : q ∈ insert p paths) :
    q = p ∨ q ∈ paths := by
  induction paths with
  | nil => exact .inl (List.mem_singleton.mp h)
  | cons first rest ih =>
    simp only [insert] at h
    split at h
    · exact List.mem_cons.mp h
    · exact .inr h
    · rcases List.mem_cons.mp h with rfl | h
      · exact .inr List.mem_cons_self
      · exact (ih h).imp_right (List.mem_cons_of_mem _)

theorem subset_insert (p : Path) (paths : List Path) : paths ⊆ insert p paths := by
  induction paths with
  | nil => exact List.nil_subset _
  | cons first rest ih =>
    simp only [insert]
    split
    · exact List.subset_cons_self _ _
    · exact List.Subset.refl _
    · exact List.cons_subset_cons _ ih

theorem exists_same_mem_insert (p : Path) (paths : List Path) :
    ∃ q ∈ insert p paths, p.Same q := by
  induction paths with
  | nil => exact ⟨p, List.mem_singleton_self p, rfl⟩
  | cons first rest ih =>
    simp only [insert]
    split
    · exact ⟨p, List.mem_cons_self, rfl⟩
    · next same => exact ⟨first, List.mem_cons_self, Path.order_eq_iff.mp same⟩
    · obtain ⟨q, member, same⟩ := ih
      exact ⟨q, List.mem_cons_of_mem _ member, same⟩

/-- Inputs stay in order, and so no two of them are spellings of one path. -/
theorem increasing_insert {paths : List Path} (h : Increasing paths) (p : Path) :
    Increasing (insert p paths) := by
  induction paths with
  | nil => exact List.pairwise_singleton _ _
  | cons first rest ih =>
    have ⟨least, ordered⟩ := List.pairwise_cons.mp h
    simp only [insert]
    split
    · next before =>
      refine List.pairwise_cons.mpr ⟨fun q member => ?_, h⟩
      rcases List.mem_cons.mp member with rfl | member
      · exact before
      · exact Path.order_trans before (least q member)
    · exact h
    · next after =>
      refine List.pairwise_cons.mpr ⟨fun q member => ?_, ih ordered⟩
      rcases mem_insert member with rfl | member
      · rw [← Path.order_swap, after]
        rfl
      · exact least q member

end Inputs
end DocComment
