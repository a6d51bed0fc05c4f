import DocComment.Proofs.Deliveries

/-! Files written one after the other. A later entry at a place takes the earlier one back, and entries at
different places go into a tree in any order. So it changes nothing to write the same files once more. -/
namespace DocComment

namespace Location

theorem key_injective {l k : Location} (same : l.key = k.key) : l = k :=
  (List.map_inj_right fun _ _ codes =>
    Path.Component.normal.inj (Path.Component.key_injective (congrArg (3 :: ·) codes))).mp same

/-- The order in which a tree keeps its entries. -/
def Before (l k : Location) : Prop := compare l.key k.key = .lt

theorem compare_swap (l k : Location) : (compare l.key k.key).swap = compare k.key l.key :=
  Std.OrientedCmp.eq_swap.symm

theorem before_or_before {l k : Location} (different : l ≠ k) : l.Before k ∨ k.Before l := by
  rw [Before, Before, ← compare_swap l k]
  cases order : compare l.key k.key with
  | lt => exact .inl rfl
  | eq => exact absurd (key_injective (Std.LawfulEqCmp.eq_of_compare order)) different
  | gt => exact .inr rfl

theorem Before.trans {j k l : Location} (first : j.Before k) (second : k.Before l) : j.Before l :=
  Std.TransCmp.lt_trans first second

theorem Before.not_before {l k : Location} (h : l.Before k) : ¬ k.Before l := by
  rw [Before, ← compare_swap l k, h]
  exact nofun

theorem Before.ne {l k : Location} (h : l.Before k) : l ≠ k := by
  rintro rfl
  exact h.not_before h

end Location

namespace FileTree

variable {t t' : FileTree} {l k j : Location} {e e' x : Entry} {entries rest : List (Location × Entry)}

theorem place_here (l : Location) (e x : Entry) (rest : List (Location × Entry)) :
    place l e ((l, x) :: rest) = (l, e) :: rest := if_pos rfl

theorem place_before (before : l.Before k) : place l e ((k, x) :: rest) = (l, e) :: (k, x) :: rest := by
  rw [place, if_neg before.ne]
  exact if_pos before

theorem place_behind (before : k.Before l) : place l e ((k, x) :: rest) = (k, x) :: place l e rest := by
  rw [place, if_neg before.ne.symm]
  exact if_neg before.not_before

theorem place_place (l : Location) (e e' : Entry) (entries : List (Location × Entry)) :
    place l e' (place l e entries) = place l e' entries := by
  induction entries with
  | nil => exact place_here l e' e []
  | cons entry rest ih =>
    obtain ⟨k, x⟩ := entry
    by_cases here : l = k
    · subst here
      rw [place_here, place_here, place_here]
    rcases Location.before_or_before here with before | behind
    · rw [place_before before, place_before before, place_here]
    · rw [place_behind behind, place_behind behind, place_behind behind, ih]

/-- Entries at different places go in in any order, also where the list is out of order. -/
theorem place_comm (before : l.Before k) (e e' : Entry) (entries : List (Location × Entry)) :
    place k e' (place l e entries) = place l e (place k e' entries) := by
  induction entries with
  | nil => rw [place, place, place_before before, place_behind before, place]
  | cons entry rest ih =>
    obtain ⟨j, x⟩ := entry
    by_cases atFirst : l = j
    · subst atFirst
      rw [place_here, place_behind before, place_behind before, place_here]
    by_cases atSecond : k = j
    · subst atSecond
      rw [place_here, place_before before, place_before before, place_behind before, place_here]
    rcases Location.before_or_before atFirst with first | first
    · rw [place_before first, place_behind before]
      rcases Location.before_or_before atSecond with second | second
      · rw [place_before second, place_before before]
      · rw [place_behind second, place_before first]
    · have second := first.trans before
      rw [place_behind first, place_behind second, place_behind second, place_behind first, ih]

theorem put_put (t : FileTree) (l : Location) (e e' : Entry) : (t.put l e).put l e' = t.put l e' :=
  congrArg (fun entries => { t with entries }) (place_place l e e' t.entries)

theorem put_comm (t : FileTree) (different : l ≠ k) (e e' : Entry) :
    (t.put l e).put k e' = (t.put k e').put l e := by
  rcases Location.before_or_before different with before | behind
  · exact congrArg (fun entries => { t with entries }) (place_comm before e e' t.entries)
  · exact congrArg (fun entries => { t with entries }) (place_comm behind e' e t.entries).symm

/-- Writes files in turn. -/
def writeAll (t : FileTree) : List (Location × ByteArray) → FileTree
  | [] => t
  | (l, content) :: writes => (t.put l (.file content)).writeAll writes

/-- What was at a place does not matter to files written there later. -/
theorem writeAll_put {writes : List (Location × ByteArray)} (later : l ∈ writes.map Prod.fst) (t : FileTree)
    (e : Entry) : (t.put l e).writeAll writes = t.writeAll writes := by
  induction writes generalizing t with
  | nil => cases later
  | cons write writes ih =>
    obtain ⟨k, content⟩ := write
    rw [writeAll, writeAll]
    by_cases here : l = k
    · subst here
      rw [put_put]
    · rw [put_comm t here]
      exact ih ((List.mem_cons.mp later).resolve_left here) _

theorem writeAll_again (t : FileTree) {first second : List (Location × ByteArray)}
    (later : first.map Prod.fst ⊆ second.map Prod.fst) :
    (t.writeAll first).writeAll second = t.writeAll second := by
  induction first generalizing t with
  | nil => rfl
  | cons write first ih =>
    rw [List.map_cons, List.cons_subset] at later
    rw [writeAll, ih _ later.2, writeAll_put later.1]

/-- Files lie ready to be written in a tree if no directory stands where one of them goes. -/
def Ready (t : FileTree) (places : Location → Prop) (writes : List (Location × ByteArray)) : Prop :=
  ∀ write ∈ writes, places write.1 ∧ t.isDirectory write.1 = false

variable {places : Location → Prop} {write : Location × ByteArray} {writes : List (Location × ByteArray)}

theorem Ready.congr {more : Location → Prop} (h : Ready t places writes) (written : WrittenAt more t t') :
    Ready t' places writes := fun write member =>
  ⟨(h write member).1, (written.isDirectory write.1).trans (h write member).2⟩

theorem writtenAt_writeAll (h : Ready t places writes) : WrittenAt places t (t.writeAll writes) := by
  induction writes generalizing t with
  | nil => exact .refl places t
  | cons write writes ih =>
    obtain ⟨here, free⟩ := h write List.mem_cons_self
    have rest : Ready t places writes := fun other member => h other (List.mem_cons_of_mem write member)
    have first := WrittenAt.put free write.2
    exact (first.mono fun _ same => same ▸ here).trans (ih (rest.congr first))

/-- A file that lies at none of the places stays a file, and nothing else becomes one. -/
theorem WrittenAt.isFile {p : Path} (h : WrittenAt places t t')
    (apart : ∀ l, t.locate p = .ok l → ¬ places l) : t'.isFile p = t.isFile p := by
  rw [Bool.eq_iff_iff, isFile_iff, isFile_iff]
  refine exists_congr fun l => exists_congr fun content => ?_
  rw [find_file_iff, find_file_iff, h.locate_iff]
  refine and_congr_right fun located => ?_
  rw [h.get? l (apart l located)]

theorem isDir_iff {p : Path} : t.isDir p = true ↔ ∃ l, t.locate p = .ok l ∧ t.isDirectory l = true := by
  rw [isDir, find]
  cases t.locate p with
  | error e => simp [bind, Except.bind]
  | ok l =>
    simp only [bind, Except.bind, Except.ok.injEq, exists_eq_left', isDirectory, decide_eq_true_iff]
    cases t.get? l with
    | none => simp
    | some e =>
      cases e with
      | directory => simp
      | file content => cases p.hasTrailingSlash <;> simp

theorem WrittenAt.isDir {p : Path} (h : WrittenAt places t t') : t'.isDir p = t.isDir p := by
  rw [Bool.eq_iff_iff, isDir_iff, isDir_iff]
  exact exists_congr fun l => by rw [h.locate_iff, h.isDirectory]

end FileTree
end DocComment
