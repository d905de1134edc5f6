import RecordQuery.Proofs.Outcome
import RecordQuery.Settings.Discovery

/-!
# Where settings files are looked for

Settings are found and loaded by looking at a few paths only. Main statements: every file that is
found is one of the candidates of the directory, file systems that are the same at these make the
same settings, and a file that is refused is one of those that were to be loaded.
-/

namespace RecordQuery

/-- The file systems are the same at this path. -/
structure Files.SameAt (files others : Files Id) (path : Path) : Prop where
  isFile : files.isFile path = others.isFile path
  read : files.read path = others.read path

theorem Files.SameAt.symm {files others : Files Id} {path : Path} (h : files.SameAt others path) :
    others.SameAt files path :=
  ⟨h.isFile.symm, h.read.symm⟩

theorem Files.SameAt.readText {files others : Files Id} {path : Path}
    (h : files.SameAt others path) : files.readText path = others.readText path := by
  rw [Files.readText, Files.readText, h.read]

namespace Settings

/-- A settings file is looked for in the directory and those above it, and at home. -/
def Candidate (home : Option Path) (directory path : Path) : Prop :=
  path ∈ directory.ancestors.map (·.join fileName) ∨ globalFile? home = some path

section Search

variable {files : Files Id}

theorem searchUp_cons (candidate : Path) (rest : List Path) :
    Id.run (searchUp files (candidate :: rest)) =
      if Id.run (files.isFile candidate) then
        if Id.run (isRootFile files candidate) then ([candidate], true)
        else (candidate :: (Id.run (searchUp files rest)).1, (Id.run (searchUp files rest)).2)
      else Id.run (searchUp files rest) := by
  rw [searchUp]
  by_cases hfile : Id.run (files.isFile candidate) = true
  · by_cases hroot : Id.run (isRootFile files candidate) = true
    · simp [hfile, hroot]
    · simp [hfile, hroot]
  · simp [hfile]

theorem mem_of_mem_searchUp {candidates : List Path} {path : Path}
    (h : path ∈ (Id.run (searchUp files candidates)).1) : path ∈ candidates := by
  induction candidates with
  | nil => exact h
  | cons candidate rest ih =>
    rw [searchUp_cons] at h
    split at h
    · split at h
      · rw [List.mem_singleton.1 h]
        exact List.mem_cons_self
      · rcases List.mem_cons.1 h with rfl | h
        · exact List.mem_cons_self
        · exact List.mem_cons_of_mem candidate (ih h)
    · exact List.mem_cons_of_mem candidate (ih h)

theorem candidate_of_mem_discover {home : Option Path} {directory path : Path}
    (h : path ∈ Id.run (discover files home directory)) : Candidate home directory path := by
  rw [discover] at h
  simp only [Id.run_bind] at h
  -- What was found on the way up, and the file at home unless a root was found or it is there.
  split at h
  · exact .inl (mem_of_mem_searchUp h)
  · split at h
    · exact .inl (mem_of_mem_searchUp h)
    · rename_i file hglobal
      simp only [Id.run_bind] at h
      split at h
      · rcases List.mem_append.1 h with h | h
        · exact .inl (mem_of_mem_searchUp h)
        · rw [List.mem_singleton.1 h]
          exact .inr hglobal
      · exact .inl (mem_of_mem_searchUp h)

end Search

/-! ## Two file systems -/

section Congruence

variable {files others : Files Id} {home : Option Path}

theorem isRootFile_congr {path : Path} (h : files.SameAt others path) :
    isRootFile files path = isRootFile others path := by
  rw [isRootFile, isRootFile, h.readText]

theorem searchUp_congr {candidates : List Path}
    (h : ∀ path ∈ candidates, files.SameAt others path) :
    searchUp files candidates = searchUp others candidates := by
  induction candidates with
  | nil => rfl
  | cons candidate rest ih =>
    obtain ⟨hcandidate, hrest⟩ := List.forall_mem_cons.1 h
    rw [searchUp, searchUp, hcandidate.isFile, isRootFile_congr hcandidate, ih hrest]

theorem discover_congr {directory : Path}
    (h : ∀ path, Candidate home directory path → files.SameAt others path) :
    discover files home directory = discover others home directory := by
  have hup := searchUp_congr fun path hpath => h path (.inl hpath)
  rw [discover, discover, hup]
  cases hglobal : globalFile? home with
  | none => rfl
  | some file =>
    have hfile := (h file (.inr hglobal)).isFile
    simp only [hfile]

theorem loadFiles_congr {paths : List Path} (h : ∀ path ∈ paths, files.SameAt others path) :
    loadFiles files paths = loadFiles others paths := by
  induction paths with
  | nil => rfl
  | cons path rest ih =>
    obtain ⟨hpath, hrest⟩ := List.forall_mem_cons.1 h
    rw [loadFiles, loadFiles, loadFile, loadFile, hpath.readText, ih hrest]

theorem loadFrom_congr {paths : List Path} (h : ∀ path ∈ paths, files.SameAt others path) :
    loadFrom files home paths = loadFrom others home paths := by
  rw [loadFrom, loadFrom, loadFiles_congr h]

end Congruence

/-! ## Files that are refused -/

section Refusals

variable {home : Option Path} {path : Path}

-- Whatever else is wrong, no file is refused once all of them have been read.
theorem expandHome_ne_malformed (text : String) :
    expandHome home text ≠ .error (.malformed path) := by
  unfold expandHome
  cases home <;> split <;> nofun

theorem resolvePath_ne_malformed (text : String) (directory : Path) :
    resolvePath home text directory ≠ .error (.malformed path) := by
  intro h
  rw [resolvePath, bind_pure_eq_error_iff] at h
  exact expandHome_ne_malformed text h

theorem over_ne_malformed (layer : BoundariesLayer) (below : Option BoundaryOverride) :
    layer.over home below ≠ .error (.malformed path) := by
  intro h
  rw [BoundariesLayer.over] at h
  split at h
  · rcases bind_eq_error_iff.1 h with h | ⟨_, _, h⟩
    · exact expandHome_ne_malformed _ h
    · exact nomatch h
  · exact nomatch h

theorem addCategory_ne_malformed (origin : Path) (boundaries : Boundaries)
    (entry : String × BoundariesLayer) :
    boundaries.addCategory home origin entry ≠ .error (.malformed path) := by
  intro h
  unfold Boundaries.addCategory at h
  split at h
  · exact nomatch h
  · rw [bind_pure_eq_error_iff] at h
    exact over_ne_malformed _ _ h

theorem addSource_ne_malformed (source : Source) (below : Boundaries) :
    below.addSource home source ≠ .error (.malformed path) := by
  intro h
  unfold Boundaries.addSource at h
  split at h
  · exact nomatch h
  · rename_i regions _
    have hentries : ∀ boundaries : Boundaries, regions.categories.entries.foldlM
        (Boundaries.addCategory home source.path) boundaries ≠ .error (.malformed path) := by
      intro boundaries h
      obtain ⟨entry, _, reached, hentry⟩ := exists_of_foldlM_eq_error h
      exact addCategory_ne_malformed source.path reached entry hentry
    dsimp only at h
    split at h
    · rcases bind_eq_error_iff.1 h with h | ⟨directory, _, h⟩
      · exact resolvePath_ne_malformed _ _ h
      · exact hentries _ h
    · exact hentries _ h

theorem merge_ne_malformed (sources : List Source) :
    merge home sources ≠ .error (.malformed path) := by
  intro h
  rw [merge, bind_pure_eq_error_iff] at h
  obtain ⟨source, _, below, hsource⟩ := exists_of_foldlM_eq_error h
  exact addSource_ne_malformed source below hsource

variable {files : Files Id}

theorem eq_of_loadFile_malformed {first : Path}
    (h : Id.run (loadFile files first) = .error (.malformed path)) : first = path := by
  unfold loadFile at h
  simp only [Id.run_bind] at h
  split at h
  · exact nomatch h
  · split at h
    · exact nomatch h
    · exact Error.malformed.inj (Except.error.inj h)

theorem mem_of_loadFiles_malformed {paths : List Path}
    (h : Id.run (loadFiles files paths) = .error (.malformed path)) : path ∈ paths := by
  induction paths with
  | nil => exact nomatch h
  | cons first rest ih =>
    simp only [loadFiles, Id.run_bind] at h
    split at h
    · rename_i hfirst
      obtain rfl := Except.error.inj h
      rw [← eq_of_loadFile_malformed hfirst]
      exact List.mem_cons_self
    · simp only [Id.run_bind] at h
      split at h
      · rename_i hrest
        obtain rfl := Except.error.inj h
        exact List.mem_cons_of_mem first (ih hrest)
      · exact nomatch h

theorem mem_of_loadFrom_malformed {paths : List Path}
    (h : Id.run (loadFrom files home paths) = .error (.malformed path)) : path ∈ paths := by
  simp only [loadFrom, Id.run_bind] at h
  split at h
  · rename_i hload
    obtain rfl := Except.error.inj h
    exact mem_of_loadFiles_malformed hload
  · exact absurd h (merge_ne_malformed _)

end Refusals

end Settings

end RecordQuery
