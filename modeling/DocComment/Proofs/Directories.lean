import DocComment.Proofs.Locations

/-! Making a directory. Everything that was in the tree stays as it was, and each directory that is new
lies on the way to the one that was asked for. -/
namespace DocComment.FileTree

/-- The ways to a directory and to those above it. -/
def OnTheWay (segments above names : List Text) : Prop := names = segments ∨ names.reverse <:+ above

/-- What is new in a tree are directories, and certain names lead to them. -/
structure Makes (origin : Location) (ways : List Text → Prop) (t t' : FileTree) : Prop where
  workingDir : t'.workingDir = t.workingDir
  get? : ∀ l, t'.get? l = t.get? l ∨ t.get? l = none ∧ t'.get? l = some .directory ∧
    ∃ names, ways names ∧ t'.follow origin names = .ok l

variable {origin : Location} {ways : List Text → Prop} {t t' t'' : FileTree} {segments above : List Text}

theorem Makes.refl (origin : Location) (ways : List Text → Prop) (t : FileTree) : Makes origin ways t t :=
  ⟨rfl, fun _ => .inl rfl⟩

theorem Makes.keeps (h : Makes origin ways t t') : KeepsDirectories t t' where
  workingDir := h.workingDir
  isDirectory l directory := by
    rcases h.get? l with same | ⟨_, made, _⟩
    · rwa [isDirectory, same]
    · rw [isDirectory, made, decide_eq_true_iff]

/-- A file was there before. -/
theorem Makes.file {l : Location} {content : ByteArray} (h : Makes origin ways t t')
    (found : t'.get? l = some (.file content)) : t.get? l = some (.file content) := by
  rcases h.get? l with same | ⟨_, made, _⟩
  · exact same.symm.trans found
  · cases made.symm.trans found

theorem Makes.mono {more : List Text → Prop} (h : Makes origin ways t t')
    (weaker : ∀ names, ways names → more names) : Makes origin more t t' where
  workingDir := h.workingDir
  get? l := (h.get? l).imp_right fun ⟨missing, made, names, way, led⟩ =>
    ⟨missing, made, names, weaker names way, led⟩

theorem Makes.trans (first : Makes origin ways t t') (second : Makes origin ways t' t'') :
    Makes origin ways t t'' where
  workingDir := second.workingDir.trans first.workingDir
  get? l := by
    rcases second.get? l with same | ⟨missing, made, way⟩
    · rcases first.get? l with same' | ⟨missing, made, names, way, led⟩
      · exact .inl (same.trans same')
      · exact .inr ⟨missing, same.trans made, names, way, follow_of_keeps second.keeps led⟩
    · rcases first.get? l with same' | ⟨_, present, _⟩
      · exact .inr ⟨same'.symm.trans missing, made, way⟩
      · rw [present] at missing
        cases missing

theorem not_isDirectory_of_missing {l : Location} (missing : t.get? l = none) : t.isDirectory l = false := by
  rw [isDirectory, missing]
  rfl

theorem keepsDirectories_put {l : Location} {e : Entry} (free : t.isDirectory l = false) :
    KeepsDirectories t (t.put l e) where
  workingDir := rfl
  isDirectory k directory := by
    have other : k ≠ l := by
      rintro rfl
      rw [free] at directory
      cases directory
    rwa [isDirectory, get?_put t (ne_root free), if_neg other]

theorem makeDir_cases (made : t.makeDir origin segments = .ok t') : ∃ target,
    t.get? target = none ∧ t' = t.put target .directory ∧
      ∀ u, KeepsDirectories t u → u.follow origin segments = .ok target := by
  rw [makeDir] at made
  obtain ⟨parent, above, made⟩ := ok_of_bind made
  cases last : segments.getLast? with
  | none => rw [last] at made; cases made
  | some name =>
    rw [last] at made
    obtain ⟨_, inside, made⟩ := ok_of_bind made
    obtain ⟨_, short, made⟩ := ok_of_bind made
    dsimp only at made
    split at made
    · cases made
    · next free =>
      cases made
      rw [Bool.not_eq_true, Bool.or_eq_false_iff, Option.isSome_eq_false_iff,
        Option.isNone_iff_eq_none] at free
      refine ⟨_, free.2, rfl, fun u kept => ?_⟩
      have directory := kept.isDirectory parent (demandDirectory_ok_iff.mp inside)
      rw [← List.dropLast_append_getLast? name last, follow_append, follow_of_keeps kept above]
      exact follow_cons_ok_iff.mpr ⟨directory, short, rfl⟩

theorem makeDir_spec (made : t.makeDir origin segments = .ok t') :
    Makes origin (· = segments) t t' := by
  obtain ⟨target, missing, rfl, led⟩ := makeDir_cases made
  have free := not_isDirectory_of_missing missing
  refine ⟨rfl, fun l => ?_⟩
  rw [get?_put t (ne_root free)]
  split
  · next same =>
    subst same
    exact .inr ⟨missing, rfl, segments, rfl, led _ (keepsDirectories_put free)⟩
  · exact .inl rfl

theorem ensureDir_spec (t : FileTree) (origin : Location) (segments : List Text) :
    Makes origin (· = segments) t (t.ensureDir origin segments).1 := by
  rw [ensureDir]
  cases made : t.makeDir origin segments with
  | ok t' => exact makeDir_spec made
  | error e => exact .refl origin _ t

theorem ensureDirs_spec (t : FileTree) (origin : Location) (segments above : List Text) :
    Makes origin (OnTheWay segments above) t (t.ensureDirs origin segments above).1 := by
  have last : ∀ (t : FileTree) (above : List Text),
      Makes origin (OnTheWay segments above) t (t.ensureDir origin segments).1 := fun t above =>
    (ensureDir_spec t origin segments).mono fun names same => .inl same
  induction above generalizing t segments with
  | nil => exact last t []
  | cons name names ih =>
    rw [ensureDirs]
    split
    · have parents := ih t (name :: names).reverse fun t above =>
        (ensureDir_spec t origin _).mono fun names => .inl
      have above : Makes origin (OnTheWay segments (name :: names)) t
          (t.ensureDirs origin (name :: names).reverse names).1 := by
        refine parents.mono fun way => ?_
        rintro (rfl | higher)
        · rw [OnTheWay, List.reverse_reverse]
          exact .inr List.suffix_rfl
        · exact .inr (higher.trans (List.suffix_cons name names))
      split
      · next t' made =>
        rw [made] at above
        exact above.trans (last t' _)
      · exact above
    · exact last t _

/-- Making a directory only makes directories that lie on the way to it. -/
theorem createDir_spec (t : FileTree) (p : Path) :
    Makes (t.start p) (OnTheWay p.segments (ancestors p)) t (t.createDir p).1 := by
  rw [createDir]
  split
  · exact .refl _ _ t
  · exact ensureDirs_spec t _ _ _

theorem leadsToDirectory_iff : t.leadsToDirectory origin segments = true ↔
    ∃ l, t.follow origin segments = .ok l ∧ t.isDirectory l = true := by
  rw [leadsToDirectory]
  cases t.follow origin segments with
  | error e => exact ⟨nofun, nofun⟩
  | ok l =>
    constructor
    · exact fun directory => ⟨l, rfl, directory⟩
    · rintro ⟨k, ⟨⟩, directory⟩
      exact directory

theorem leadsToDirectory_of_keeps (kept : KeepsDirectories t t')
    (leads : t.leadsToDirectory origin segments = true) :
    t'.leadsToDirectory origin segments = true := by
  obtain ⟨l, led, directory⟩ := leadsToDirectory_iff.mp leads
  exact leadsToDirectory_iff.mpr ⟨l, follow_of_keeps kept led, kept.isDirectory l directory⟩

theorem ensureDir_leads (done : (t.ensureDir origin segments).2 = .ok ()) :
    (t.ensureDir origin segments).1.leadsToDirectory origin segments = true := by
  rw [ensureDir] at done ⊢
  cases made : t.makeDir origin segments with
  | ok t' =>
    obtain ⟨target, missing, rfl, led⟩ := makeDir_cases made
    have free := not_isDirectory_of_missing missing
    refine leadsToDirectory_iff.mpr ⟨target, led _ (keepsDirectories_put free), ?_⟩
    rw [isDirectory, get?_put t (ne_root free), if_pos rfl, decide_eq_true_iff]
  | error e =>
    rw [made] at done
    dsimp only at done ⊢
    split at done
    · next leads => exact leads
    · cases done

theorem ensureDirs_leads (done : (t.ensureDirs origin segments above).2 = .ok ()) :
    (t.ensureDirs origin segments above).1.leadsToDirectory origin segments = true := by
  cases above with
  | nil => exact ensureDir_leads done
  | cons name names =>
    rw [ensureDirs] at done ⊢
    split at done
    · split at done
      · exact ensureDir_leads done
      · next failed =>
        have made : t.ensureDirs origin (name :: names).reverse names =
            ((t.ensureDirs origin (name :: names).reverse names).1, .ok ()) := Prod.ext rfl done
        exact absurd made (failed _)
    · exact ensureDir_leads done

/-- When the directory could be made, or was there, its path leads to it. -/
theorem createDir_leads {p : Path} (done : (t.createDir p).2 = .ok ()) :
    (t.createDir p).1.leadsToDirectory (t.start p) p.segments = true := by
  rw [createDir] at done ⊢
  split at done
  · cases done
  · next short =>
    rw [if_neg short]
    exact ensureDirs_leads done

/-- A directory that is there cannot be made. -/
theorem makeDir_of_leads (leads : t.leadsToDirectory origin segments = true) :
    t.makeDir origin segments = .error .alreadyExists := by
  obtain ⟨l, led, directory⟩ := leadsToDirectory_iff.mp leads
  rw [makeDir]
  cases last : segments.getLast? with
  | none =>
    rw [List.getLast?_eq_none_iff.mp last]
    rfl
  | some name =>
    rw [← List.dropLast_append_getLast? name last, follow_append] at led
    obtain ⟨parent, above, led⟩ := ok_of_bind led
    obtain ⟨inside, short, here⟩ := follow_cons_ok_iff.mp led
    cases here
    have present : (t.get? (descend parent name)).isSome = true := by
      rw [decide_eq_true_iff.mp directory]
      rfl
    simp [above, demandDirectory_ok_iff.mpr inside, short, present, bind, Except.bind]

theorem ensureDirs_of_leads (leads : t.leadsToDirectory origin segments = true) (above : List Text) :
    t.ensureDirs origin segments above = (t, .ok ()) := by
  have here : t.ensureDir origin segments = (t, .ok ()) := by
    rw [ensureDir, makeDir_of_leads leads]
    exact Prod.ext rfl (if_pos leads)
  cases above with
  | nil => exact here
  | cons name names =>
    rw [ensureDirs, makeDir_of_leads leads]
    exact here

/-- Once made, a directory is found as long as no directory is lost. -/
theorem createDir_again {made : FileTree} {p : Path} (created : t.createDir p = (made, .ok ()))
    (kept : KeepsDirectories made t') : t'.createDir p = (t', .ok ()) := by
  have start : t'.start p = t.start p := by
    have makes := (createDir_spec t p).workingDir
    rw [created] at makes
    rw [FileTree.start, FileTree.start, kept.workingDir, makes]
  have leads := createDir_leads (congrArg Prod.snd created)
  rw [created, ← start] at leads
  rw [createDir] at created ⊢
  split at created
  · cases created
  · next short =>
    rw [if_neg short]
    exact ensureDirs_of_leads (leadsToDirectory_of_keeps kept leads) _

end DocComment.FileTree
