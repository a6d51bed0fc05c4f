import DocComment.Element
import Mathlib.Data.List.Basic

/-! The order of elements in a document. Going through the sections one after the other comes to the
same as sorting the elements by their sections, where elements of one section keep their order. -/
namespace DocComment.Element

def notAfter (a b : Element) : Bool := a.target.index ≤ b.target.index

theorem notAfter_trans (a b c : Element) (first : notAfter a b = true) (second : notAfter b c = true) :
    notAfter a c = true := by
  simp only [notAfter, decide_eq_true_eq] at first second ⊢
  exact Fin.le_trans first second

theorem notAfter_total (a b : Element) : (notAfter a b || notAfter b a) = true := by
  simp only [notAfter, Bool.or_eq_true, decide_eq_true_eq]
  exact Fin.le_total _ _

theorem all_increasing : Section.all.Pairwise fun s t => s.index < t.index := by decide

theorem mem_bySection {e : Element} {es : List Element} : e ∈ bySection es ↔ e ∈ es := by
  simp [bySection, Section.mem_all]

private theorem filter_cons_of_ne {e : Element} {s : Section} (other : s ≠ e.target)
    (es : List Element) :
    ((e :: es).filter fun x => x.target = s) = es.filter fun x => x.target = s := by
  simp [Ne.symm other]

/-- An element that no other comes before stands first. -/
theorem bySection_cons {e : Element} {es : List Element} (least : ∀ x ∈ es, notAfter e x = true) :
    bySection (e :: es) = e :: bySection es := by
  obtain ⟨before, behind, parts⟩ := List.append_of_mem (Section.mem_all e.target)
  have ordered := all_increasing
  rw [parts, List.pairwise_append, List.pairwise_cons] at ordered
  obtain ⟨_, ⟨later, _⟩, earlier⟩ := ordered
  have front : ∀ s ∈ before, (es.filter fun x => x.target = s) = [] := by
    intro s member
    rw [List.filter_eq_nil_iff]
    intro x inside same
    have bound := earlier s member e.target List.mem_cons_self
    have low := least x inside
    simp only [notAfter, decide_eq_true_eq] at low same
    rw [same] at low
    exact absurd bound (Fin.not_lt.mpr low)
  have skipped : ∀ s ∈ before, ((e :: es).filter fun x => x.target = s) = [] := by
    intro s member
    have bound := earlier s member e.target List.mem_cons_self
    have other : s ≠ e.target := fun same => Fin.ne_of_lt bound (congrArg Section.index same)
    rw [filter_cons_of_ne other, front s member]
  have back : ∀ s ∈ behind,
      ((e :: es).filter fun x => x.target = s) = es.filter fun x => x.target = s := by
    intro s member
    have other : s ≠ e.target := fun same =>
      Fin.ne_of_gt (later s member) (congrArg Section.index same)
    exact filter_cons_of_ne other es
  have middle : ((e :: es).filter fun x => x.target = e.target) =
      e :: es.filter fun x => x.target = e.target := by simp
  simp only [bySection, parts, List.flatMap_append, List.flatMap_cons]
  rw [List.flatMap_eq_nil_iff.mpr front, List.flatMap_eq_nil_iff.mpr skipped,
    List.flatMap_congr back, middle]
  rfl

theorem bySection_eq_self {es : List Element} (ordered : es.Pairwise fun a b => notAfter a b = true) :
    bySection es = es := by
  induction es with
  | nil => rfl
  | cons e es ih =>
    obtain ⟨least, ordered⟩ := List.pairwise_cons.mp ordered
    rw [bySection_cons least, ih ordered]

theorem filter_mergeSort (es : List Element) (s : Section) :
    ((es.mergeSort notAfter).filter fun e => e.target = s) = es.filter fun e => e.target = s := by
  have level : (es.filter fun e => e.target = s).Pairwise fun a b => notAfter a b = true := by
    rw [List.pairwise_iff_forall_sublist]
    intro a b inside
    have members := List.cons_subset.mp inside.subset
    have first := (List.mem_filter.mp members.1).2
    have second := (List.mem_filter.mp (members.2 (List.mem_singleton_self b))).2
    simp only [decide_eq_true_eq] at first second
    simp [notAfter, first, second]
  have kept := List.sublist_mergeSort notAfter_trans notAfter_total level List.filter_sublist
  have sorted := kept.filter fun e => decide (e.target = s)
  rw [List.filter_filter] at sorted
  simp only [Bool.and_self] at sorted
  have size := ((List.mergeSort_perm es notAfter).filter fun e => decide (e.target = s)).length_eq
  exact (sorted.eq_of_length size.symm).symm

/-- The order of a document is the stable sort of the elements by their sections. -/
theorem bySection_eq_mergeSort (es : List Element) : bySection es = es.mergeSort notAfter := by
  have sorted := List.pairwise_mergeSort notAfter_trans notAfter_total es
  rw [← bySection_eq_self sorted]
  exact List.flatMap_congr fun s _ => (filter_mergeSort es s).symm

end DocComment.Element
