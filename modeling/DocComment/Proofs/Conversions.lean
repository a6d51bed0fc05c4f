import DocComment.Proofs.Locations
import DocComment.Proofs.Sessions

/-! Conversions in a tree of files. To deliver an input is to read it, to render its comment as a session
of its own would, and to write its output; that is what a conversion comes to, and it only changes the
place of the output. So each input is read as it was before the run unless it lies at such a place
itself, and what a place holds after the run was written by the last of the inputs whose output lies
there. -/
namespace DocComment

namespace FileTree

variable {t t' t'' : FileTree} {p : Path} {l : Location} {text : Text} {places : Location → Prop}

theorem find_file_iff {content : ByteArray} : t.find p = .ok (l, .file content) ↔
    t.locate p = .ok l ∧ t.get? l = some (.file content) ∧ p.hasTrailingSlash = false := by
  rw [find]
  constructor
  · intro done
    obtain ⟨k, located, done⟩ := ok_of_bind done
    split at done
    · cases done
    · cases done
    · next found =>
      split at done
      · cases done
      · next plain =>
        cases done
        exact ⟨located, found, Bool.eq_false_iff.mpr plain⟩
  · rintro ⟨located, found, plain⟩
    simp only [located, bind, Except.bind, found, plain, Bool.false_eq_true, if_false]

theorem read_ok_iff : t.read p = .ok text ↔ ∃ l content s, t.find p = .ok (l, .file content) ∧
    String.fromUTF8? content = some s ∧ s.toList = text := by
  rw [read]
  constructor
  · intro done
    obtain ⟨⟨l, e⟩, found, done⟩ := ok_of_bind done
    cases e with
    | directory => cases done
    | file content =>
      dsimp only at done
      cases decoded : String.fromUTF8? content with
      | none => rw [decoded] at done; cases done
      | some s =>
        rw [decoded] at done
        cases done
        exact ⟨l, content, s, found, decoded, rfl⟩
  · rintro ⟨l, content, s, found, decoded, rfl⟩
    simp only [found, bind, Except.bind, decoded]

theorem write_ok {t' : FileTree} (done : t.write p text = .ok t') : ∃ l, t.locate p = .ok l ∧
    t.isDirectory l = false ∧ t' = t.put l (.file (String.ofList text).toUTF8) := by
  rw [write] at done
  obtain ⟨l, located, done⟩ := ok_of_bind done
  split at done
  · cases done
  · next free =>
    cases done
    rw [Bool.not_eq_true, Bool.or_eq_false_iff] at free
    exact ⟨l, located, free.1, rfl⟩

theorem write_of_free (located : t.locate p = .ok l) (free : t.isDirectory l = false)
    (plain : p.hasTrailingSlash = false) :
    t.write p text = .ok (t.put l (.file (String.ofList text).toUTF8)) := by
  rw [write, located]
  simp only [bind, Except.bind, free, plain, Bool.or_self, Bool.false_eq_true, if_false]

/-- A tree as it is after files were written to some places. -/
structure WrittenAt (places : Location → Prop) (t t' : FileTree) : Prop where
  workingDir : t'.workingDir = t.workingDir
  isDirectory : ∀ l, t'.isDirectory l = t.isDirectory l
  get? : ∀ l, ¬ places l → t'.get? l = t.get? l

namespace WrittenAt

theorem refl (places : Location → Prop) (t : FileTree) : WrittenAt places t t :=
  ⟨rfl, fun _ => rfl, fun _ _ => rfl⟩

theorem trans (first : WrittenAt places t t') (second : WrittenAt places t' t'') :
    WrittenAt places t t'' where
  workingDir := second.workingDir.trans first.workingDir
  isDirectory l := (second.isDirectory l).trans (first.isDirectory l)
  get? l outside := (second.get? l outside).trans (first.get? l outside)

theorem mono {more : Location → Prop} (h : WrittenAt places t t') (within : ∀ l, places l → more l) :
    WrittenAt more t t' :=
  ⟨h.workingDir, h.isDirectory, fun l outside => h.get? l fun inside => outside (within l inside)⟩

theorem put (free : t.isDirectory l = false) (content : ByteArray) :
    WrittenAt (· = l) t (t.put l (.file content)) := by
  have nonroot := ne_root free
  refine ⟨rfl, fun k => ?_, fun k other => by rw [get?_put t nonroot, if_neg other]⟩
  rw [FileTree.isDirectory, FileTree.isDirectory, get?_put t nonroot]
  split
  · next same =>
    subst same
    exact free.symm
  · rfl

theorem symm (h : WrittenAt places t t') : WrittenAt places t' t :=
  ⟨h.workingDir.symm, fun l => (h.isDirectory l).symm, fun l outside => (h.get? l outside).symm⟩

theorem keeps (h : WrittenAt places t t') : KeepsDirectories t t' :=
  ⟨h.workingDir, fun l directory => (h.isDirectory l).trans directory⟩

theorem locate_iff (h : WrittenAt places t t') : t'.locate p = .ok l ↔ t.locate p = .ok l :=
  ⟨locate_of_keeps h.symm.keeps, locate_of_keeps h.keeps⟩

/-- A file that lies at none of the places is read as before. -/
theorem read (h : WrittenAt places t t') (apart : ∀ l, t.locate p = .ok l → ¬ places l)
    (done : t'.read p = .ok text) : t.read p = .ok text := by
  obtain ⟨l, content, s, found, decoded⟩ := read_ok_iff.mp done
  obtain ⟨located, here, plain⟩ := find_file_iff.mp found
  have located := h.locate_iff.mp located
  rw [h.get? l (apart l located)] at here
  exact read_ok_iff.mpr ⟨l, content, s, find_file_iff.mpr ⟨located, here, plain⟩, decoded⟩

end WrittenAt
end FileTree

namespace Conversion

open FileTree

variable {m : Markup} {dir input : Path} {t t' : FileTree} {c c' : Conversion} {inputs : List Path} {l : Location}

/-- What an input turns into. -/
def written (m : Markup) (comment : Text) : Entry := .file (String.ofList (render m comment ++ ['\n'])).toUTF8

/-- Where the outputs of some inputs lie. -/
def Outputs (t : FileTree) (dir : Path) (inputs : List Path) (l : Location) : Prop :=
  ∃ p ∈ inputs, t.locate (outputOf dir p) = .ok l

/-- Processes an input on its own. -/
def deliver (m : Markup) (dir : Path) (t : FileTree) (input : Path) : Except Failure FileTree :=
  match t.read input with
  | .error e => .error (.read input e)
  | .ok comment =>
    match t.write (outputOf dir input) (render m comment ++ ['\n']) with
    | .error e => .error (.write (outputOf dir input) e)
    | .ok t => .ok t

theorem deliver_ok (done : deliver m dir t input = .ok t') : ∃ comment l, t.read input = .ok comment ∧
    t.locate (outputOf dir input) = .ok l ∧ t.isDirectory l = false ∧ t' = t.put l (written m comment) := by
  rw [deliver] at done
  cases taken : t.read input with
  | error e => rw [taken] at done; cases done
  | ok comment =>
    rw [taken] at done
    dsimp only at done
    cases stored : t.write (outputOf dir input) (render m comment ++ ['\n']) with
    | error e => rw [stored] at done; cases done
    | ok tree =>
      rw [stored] at done
      cases done
      obtain ⟨l, located, free, rfl⟩ := write_ok stored
      exact ⟨comment, l, rfl, located, free, rfl⟩

/-- The session is cleared before each input, so it brings nothing of its own. -/
theorem convert_eq (c : Conversion) (dir input : Path) : ∃ c',
    c'.session.markup = c.session.markup ∧
    match deliver c.session.markup dir c.tree input with
    | .ok t => c.convert dir input = (c', none) ∧ c'.tree = t
    | .error f => c.convert dir input = (c', some f) ∧ c'.tree = c.tree := by
  rw [convert, deliver]
  cases c.tree.read input with
  | error e => exact ⟨c, rfl, rfl, rfl⟩
  | ok comment =>
    obtain ⟨session, rendered, markup⟩ := Session.render_cleared c.session comment
    simp only [rendered]
    cases c.tree.write (outputOf dir input) (render c.session.markup comment ++ ['\n']) with
    | error e => exact ⟨_, markup, rfl, rfl⟩
    | ok tree => exact ⟨_, markup, rfl, rfl⟩

theorem convert_spec (done : c.convert dir input = (c', none)) : ∃ comment l,
    c.tree.read input = .ok comment ∧ c.tree.locate (outputOf dir input) = .ok l ∧
      c.tree.isDirectory l = false ∧ c'.tree = c.tree.put l (written c.session.markup comment) ∧
      c'.session.markup = c.session.markup := by
  obtain ⟨last, markup, converted⟩ := convert_eq c dir input
  cases delivered : deliver c.session.markup dir c.tree input with
  | error f =>
    rw [delivered, done] at converted
    cases converted.1
  | ok t =>
    rw [delivered, done] at converted
    obtain ⟨same, rfl⟩ := converted
    cases same
    obtain ⟨comment, l, taken, located, free, stored⟩ := deliver_ok delivered
    exact ⟨comment, l, taken, located, free, stored, markup⟩

theorem convertAll_cons (done : c.convertAll dir (input :: inputs) = (c', none)) :
    ∃ first, c.convert dir input = (first, none) ∧ first.convertAll dir inputs = (c', none) := by
  rw [convertAll] at done
  split at done
  · next first converted => exact ⟨first, converted, done⟩
  · next failed => exact absurd done (failed c')

/-- A run over inputs only writes to the places of their outputs. -/
theorem convertAll_frame (done : c.convertAll dir inputs = (c', none)) :
    WrittenAt (Outputs c.tree dir inputs) c.tree c'.tree := by
  induction inputs generalizing c with
  | nil =>
    cases done
    exact .refl _ _
  | cons input inputs ih =>
    obtain ⟨first, converted, done⟩ := convertAll_cons done
    obtain ⟨comment, l, taken, located, free, stored, markup⟩ := convert_spec converted
    have step : WrittenAt (· = l) c.tree first.tree := stored ▸ WrittenAt.put free _
    refine (step.mono ?_).trans ((ih done).mono ?_)
    · rintro k rfl
      exact ⟨input, List.mem_cons_self, located⟩
    · rintro k ⟨q, member, here⟩
      exact ⟨q, List.mem_cons_of_mem input member, step.locate_iff.mp here⟩

/-- What a place holds after a run over inputs: the last of them whose output lies there was read as it
was before the run, and its rendering was written. -/
structure Delivered (t : FileTree) (m : Markup) (dir : Path) (inputs : List Path) (l : Location)
    (e : Entry) : Prop where
  last : ∃ before p after comment, inputs = before ++ p :: after ∧
    t.locate (outputOf dir p) = .ok l ∧ (∀ q ∈ after, t.locate (outputOf dir q) ≠ .ok l) ∧
    t.read p = .ok comment ∧ e = written m comment

/-- What was written behind a first input would have been written without it, unless that input has
changed what is read later. -/
theorem Delivered.cons {t t' : FileTree} {m : Markup} {k : Location} {e : Entry} {input : Path}
    (step : WrittenAt (· = l) t t') (apart : ∀ p ∈ inputs, t.locate p ≠ .ok l)
    (h : Delivered t' m dir inputs k e) : Delivered t m dir (input :: inputs) k e := by
  obtain ⟨before, p, after, comment, rfl, there, least, taken, value⟩ := h.last
  have inside : p ∈ before ++ p :: after := List.mem_append_right before List.mem_cons_self
  have original : t.read p = .ok comment := by
    refine step.read ?_ taken
    rintro place lies rfl
    exact apart p inside lies
  exact ⟨input :: before, p, after, comment, rfl, step.locate_iff.mp there,
    fun q member lies => least q member (step.locate_iff.mpr lies), original, value⟩

theorem convertAll_delivers (done : c.convertAll dir inputs = (c', none))
    (apart : ∀ p ∈ inputs, ∀ l, c.tree.locate p = .ok l → ¬ Outputs c.tree dir inputs l) {q : Path}
    (member : q ∈ inputs) : ∃ l e, c.tree.locate (outputOf dir q) = .ok l ∧ c'.tree.get? l = some e ∧
      Delivered c.tree c.session.markup dir inputs l e := by
  induction inputs generalizing c q with
  | nil => cases member
  | cons input inputs ih =>
    obtain ⟨first, converted, rest⟩ := convertAll_cons done
    obtain ⟨comment, l, taken, located, free, stored, markup⟩ := convert_spec converted
    have step : WrittenAt (· = l) c.tree first.tree := stored ▸ WrittenAt.put free _
    have untouched : ∀ p ∈ inputs, c.tree.locate p ≠ .ok l := fun p inside lies =>
      apart p (List.mem_cons_of_mem input inside) l lies ⟨input, List.mem_cons_self, located⟩
    have apart' : ∀ p ∈ inputs, ∀ k, first.tree.locate p = .ok k → ¬ Outputs first.tree dir inputs k := by
      rintro p inside k lies ⟨r, other, there⟩
      exact apart p (List.mem_cons_of_mem input inside) k (step.locate_iff.mp lies)
        ⟨r, List.mem_cons_of_mem input other, step.locate_iff.mp there⟩
    have later : ∀ r ∈ inputs, ∃ k e, c.tree.locate (outputOf dir r) = .ok k ∧
        c'.tree.get? k = some e ∧ Delivered c.tree c.session.markup dir (input :: inputs) k e := by
      intro r inside
      obtain ⟨k, e, here, holds, delivered⟩ := ih rest apart' inside
      exact ⟨k, e, step.locate_iff.mp here, holds, .cons step untouched (markup ▸ delivered)⟩
    rcases List.mem_cons.mp member with rfl | inside
    · by_cases again : ∃ r ∈ inputs, c.tree.locate (outputOf dir r) = .ok l
      · obtain ⟨r, inside, here⟩ := again
        obtain ⟨k, e, there, delivered⟩ := later r inside
        cases here.symm.trans there
        exact ⟨l, e, located, delivered⟩
      · have only : ∀ r ∈ inputs, c.tree.locate (outputOf dir r) ≠ .ok l :=
          fun r inside here => again ⟨r, inside, here⟩
        have kept := (convertAll_frame rest).get? l fun ⟨r, inside, here⟩ =>
          only r inside (step.locate_iff.mp here)
        rw [stored, get?_put _ (ne_root free), if_pos rfl] at kept
        exact ⟨l, _, located, kept, ⟨[], q, inputs, comment, rfl, located, only, taken, rfl⟩⟩
    · exact later q inside

end Conversion
end DocComment
