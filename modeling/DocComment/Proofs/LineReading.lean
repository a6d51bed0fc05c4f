import DocComment.Line
import DocComment.Proofs.Trimming
import DocComment.Proofs.Words

/-! What a line contributes: its text is part of the line, and a name is a piece of it that is not
empty and holds no blanks. -/
namespace DocComment.Line

namespace Content

def text : Content → Text
  | .tag _ _ text | .begins text | .continuation text | .plain text => text
  | .blank => []

def name? : Content → Option Text
  | .tag _ name _ => name
  | _ => none

/-- The section of a tag line. Any other line has none. -/
def target? : Content → Option Section
  | .tag s _ _ => some s
  | _ => none

end Content

variable {raw name rest : Text} {c : Char} {s : Section}

theorem endsBlock_iff (raw : Text) : (read raw).endsBlock = true ↔ endMarker <:+: raw :=
  Text.indexOf?_isSome_iff

theorem read_eq (unclosed : ¬ endMarker <:+: raw) : read raw = ⟨readContent raw, false⟩ := by
  have runsOn : (read raw).endsBlock = false := by
    rw [← Bool.not_eq_true, endsBlock_iff]
    exact unclosed
  exact congrArg (Line.mk (readContent raw)) runsOn

theorem body_prefix_self (raw : Text) : body raw <+: raw := by
  rw [body]
  split
  · exact List.take_prefix _ raw
  · exact List.prefix_refl raw

theorem body_eq_self (unclosed : ¬ endMarker <:+: raw) : body raw = raw := by
  rw [body, Text.indexOf?_eq_none_iff.mpr unclosed]

theorem mem_leadingName {text : Text} (h : c ∈ leadingName text) : isBlank c = false ∧ c ∈ text := by
  fun_induction leadingName text with
  | case1 => simp at h
  | case2 => simp at h
  | case3 d cs _ blank => simp at h
  | case4 d cs _ solid ih =>
    rcases List.mem_cons.mp h with rfl | later
    · exact ⟨Bool.eq_false_iff.mpr solid, List.mem_cons_self⟩
    · exact (ih later).imp_right (List.mem_cons_of_mem d)

theorem separatedName?_solid {text : Text} (found : separatedName? text = some name) :
    name.Solid := by
  intro c h
  unfold separatedName? at found
  split at found
  · cases found
  · cases found
    exact (mem_leadingName h).1
  · cases found

theorem tagContent_text_subset (raw : Text) (s : Section) (stop : Nat) :
    (tagContent raw s stop).text ⊆ raw := by
  rw [tagContent]
  split <;> exact List.Subset.trans (List.drop_subset _ _) (body_prefix_self raw).subset

theorem untaggedContent_text_subset (raw : Text) : (untaggedContent raw).text ⊆ raw := by
  have inner : (body raw).trimStart ⊆ raw :=
    List.Subset.trans (List.dropWhile_suffix isBlank).subset (body_prefix_self raw).subset
  rw [untaggedContent]
  split
  · next colon =>
    rw [colon] at inner
    exact List.Subset.trans (List.subset_cons_self _ _) inner
  · exact List.nil_subset raw
  · exact (body_prefix_self raw).subset

theorem readContent_text_subset (raw : Text) : (readContent raw).text ⊆ raw := by
  rw [readContent]
  split
  · exact tagContent_text_subset raw _ _
  · split
    · exact List.Subset.trans (List.drop_subset _ _) (body_prefix_self raw).subset
    · exact untaggedContent_text_subset raw

theorem untaggedContent_name? (raw : Text) : (untaggedContent raw).name? = none := by
  rw [untaggedContent]
  split <;> rfl

theorem name?_solid (found : (readContent raw).name? = some name) : name.Solid := by
  rw [readContent] at found
  split at found
  · next s stop _ =>
    rw [tagContent] at found
    split at found
    · next separated =>
      simp only [Content.name?] at found
      split at found
      · cases found
      · cases found
        split at separated
        · exact separatedName?_solid separated
        · cases separated
    · cases found
  · split at found
    · cases found
    · rw [untaggedContent_name?] at found
      cases found

theorem tagContent_target? (raw : Text) (s : Section) (stop : Nat) :
    (tagContent raw s stop).target? = some s := by
  rw [tagContent]
  split <;> rfl

theorem untaggedContent_target? (raw : Text) : (untaggedContent raw).target? = none := by
  rw [untaggedContent]
  split <;> rfl

/-- A line is a tag line of the section whose keyword is found in it. -/
theorem readContent_target? (raw : Text) :
    (readContent raw).target? = (findKeyword? raw).map Prod.fst := by
  rw [readContent]
  split
  · next found =>
    rw [found, tagContent_target?]
    rfl
  · next absent =>
    rw [absent]
    split
    · rfl
    · exact untaggedContent_target? raw

theorem findKeyword?_spec {stop : Nat} (found : findKeyword? raw = some (s, stop)) :
    s ∈ Section.tagged ∧ ∃ i, raw.indexOf? s.keyword = some i ∧ stop = i + s.keyword.length := by
  obtain ⟨t, member, reached⟩ := List.exists_of_findSome?_eq_some found
  obtain ⟨i, place, same⟩ := Option.map_eq_some_iff.mp reached
  cases same
  exact ⟨member, i, place, rfl⟩

theorem target?_ne_description (raw : Text) : (readContent raw).target? ≠ some .description := by
  rw [readContent_target?]
  intro description
  obtain ⟨⟨s, stop⟩, found, rfl⟩ := Option.map_eq_some_iff.mp description
  exact Section.mem_tagged.mp (findKeyword?_spec found).1 rfl

end DocComment.Line
