import RecordQuery.Proofs.Path.Components
import RecordQuery.Proofs.Settings.Discovery

/-!
# Where the search for settings files ends

A file that says it is the root ends the search. Main statement: of the files of a directory and
those above it, the present ones up to the first root are found, the closest first; the file at home
is found behind them when there is no root and it is not among them already; and nothing that is not
found has a part in the settings.
-/

namespace RecordQuery.Settings

/-- Where a directory and those above it have their settings files, the closest first. -/
def candidates (directory : Path) : List Path := directory.ancestors.map (·.join fileName)

/-- There is a file that can be read as settings, and these say it is the root. -/
def IsRoot (files : Files Id) (path : Path) : Prop :=
  Id.run (files.isFile path) = true ∧
    ∃ text layer, Id.run (files.readText path) = .ok text ∧ Layer.parse? text = some layer ∧
      layer.root = some true

theorem IsRoot.congr {files others : Files Id} {path : Path} (hroot : IsRoot files path)
    (h : files.SameAt others path) : IsRoot others path := by
  unfold IsRoot at hroot ⊢
  rwa [← h.isFile, ← h.readText]

/-- The paths with a file. -/
def present (files : Files Id) (paths : List Path) : List Path :=
  paths.filter fun path => Id.run (files.isFile path)

/-! ## Candidates -/

theorem components_join_fileName (directory : Path) :
    (directory.join fileName).components =
      directory.components ++ [.name fileName.text.toList] := by
  by_cases hempty : directory.text = ""
  · obtain rfl : directory = ⟨""⟩ := congrArg Path.mk hempty
    decide
  · rw [Path.components_join (by decide) hempty]
    rfl

theorem nodup_components_candidates (directory : Path) :
    ((candidates directory).map Path.components).Nodup := by
  have hsame : (candidates directory).map Path.components =
      (directory.ancestors.map Path.components).map (· ++ [.name fileName.text.toList]) := by
    rw [candidates, List.map_map, List.map_map]
    exact List.map_congr_left fun upper _ => components_join_fileName upper
  rw [hsame]
  exact (Path.nodup_components_ancestors directory).map (List.append_left_injective _)

/-! ## The search -/

section Search

variable {files : Files Id} {path root : Path} {paths before : List Path}

theorem isRootFile_eq_true_iff :
    Id.run (isRootFile files path) = true ↔
      ∃ text layer, Id.run (files.readText path) = .ok text ∧ Layer.parse? text = some layer ∧
        layer.root = some true := by
  rw [isRootFile, Id.run_bind]
  cases Id.run (files.readText path) with
  | error reason =>
    refine ⟨fun h => Bool.noConfusion h, ?_⟩
    rintro ⟨_, _, h, _⟩
    cases h
  | ok text =>
    show (Layer.parse? text).any Layer.isRoot = true ↔ _
    constructor
    · intro h
      obtain ⟨layer, hlayer, hroot⟩ := (Option.any_eq_true _ _).1 h
      exact ⟨text, layer, rfl, hlayer, beq_iff_eq.1 hroot⟩
    · rintro ⟨_, layer, htext, hlayer, hroot⟩
      obtain rfl := Except.ok.inj htext
      rw [hlayer]
      exact beq_iff_eq.2 hroot

-- What is no root is found if it is there, and the search goes on.
theorem searchUp_cons_of_not_isRoot (h : ¬ IsRoot files path) (rest : List Path) :
    Id.run (searchUp files (path :: rest)) =
      (present files [path] ++ (Id.run (searchUp files rest)).1,
        (Id.run (searchUp files rest)).2) := by
  rw [searchUp_cons, present, List.filter_singleton]
  by_cases hfile : Id.run (files.isFile path) = true
  · rw [if_pos hfile, if_neg fun hroot => h ⟨hfile, isRootFile_eq_true_iff.1 hroot⟩, hfile]
    rfl
  · rw [if_neg hfile, Bool.eq_false_iff.2 hfile]
    rfl

theorem searchUp_append (h : ∀ path ∈ before, ¬ IsRoot files path) (rest : List Path) :
    Id.run (searchUp files (before ++ rest)) =
      (present files before ++ (Id.run (searchUp files rest)).1,
        (Id.run (searchUp files rest)).2) := by
  induction before with
  | nil => rfl
  | cons path before ih =>
    obtain ⟨hpath, hbefore⟩ := List.forall_mem_cons.1 h
    have hsplit : present files (path :: before) = present files [path] ++ present files before :=
      List.filter_append [path] before
    rw [List.cons_append, searchUp_cons_of_not_isRoot hpath, ih hbefore, hsplit, List.append_assoc]

theorem searchUp_of_isRoot (hroot : IsRoot files root) (after : List Path) :
    Id.run (searchUp files (root :: after)) = ([root], true) := by
  rw [searchUp_cons, if_pos hroot.1, if_pos (isRootFile_eq_true_iff.2 hroot.2)]

theorem searchUp_sublist (files : Files Id) (paths : List Path) :
    (Id.run (searchUp files paths)).1.Sublist paths := by
  induction paths with
  | nil => exact List.Sublist.slnil
  | cons path paths ih =>
    rw [searchUp_cons]
    split
    · split
      · exact List.singleton_sublist.2 List.mem_cons_self
      · exact ih.cons_cons path
    · exact ih.cons path

end Search

/-! ## What is found -/

section Discovery

variable {files : Files Id} {home : Option Path} {directory root : Path}
  {before after : List Path}

/-- The file at home, if it is there and is not among these paths already. -/
def globalBehind (files : Files Id) (home : Option Path) (found : List Path) : List Path :=
  (globalFile? home).toList.filter fun file =>
    Id.run (files.isFile file) && !found.any (·.samePlace file)

theorem discover_eq {found : List Path} {stopped : Bool}
    (h : Id.run (searchUp files (candidates directory)) = (found, stopped)) :
    Id.run (discover files home directory) =
      if stopped then found else found ++ globalBehind files home found := by
  unfold candidates at h
  rw [discover, Id.run_bind, h]
  cases stopped with
  | true => rfl
  | false =>
    rw [globalBehind]
    cases globalFile? home with
    | none => exact (List.append_nil found).symm
    | some file =>
      simp only [Id.run_bind, Bool.false_eq_true, if_false, Option.toList_some,
        List.filter_singleton]
      split
      · rename_i hfile
        rw [hfile]
        rfl
      · rename_i hfile
        rw [Bool.eq_false_iff.2 hfile]
        exact (List.append_nil found).symm

theorem discover_of_isRoot (hsplit : candidates directory = before ++ root :: after)
    (hroot : IsRoot files root) (hbefore : ∀ path ∈ before, ¬ IsRoot files path) :
    Id.run (discover files home directory) = present files before ++ [root] := by
  have hup : Id.run (searchUp files (candidates directory)) =
      (present files before ++ [root], true) := by
    rw [hsplit, searchUp_append hbefore, searchUp_of_isRoot hroot]
  exact discover_eq hup

theorem discover_of_forall_not_isRoot (h : ∀ path ∈ candidates directory, ¬ IsRoot files path) :
    Id.run (discover files home directory) =
      present files (candidates directory) ++
        globalBehind files home (present files (candidates directory)) := by
  have hup : Id.run (searchUp files (candidates directory)) =
      (present files (candidates directory), false) := by
    have happend := searchUp_append h []
    rwa [List.append_nil, searchUp, Id.run_pure, List.append_nil] at happend
  exact discover_eq hup

/-- No file is found twice. -/
theorem nodup_components_discover (files : Files Id) (home : Option Path) (directory : Path) :
    ((Id.run (discover files home directory)).map Path.components).Nodup := by
  obtain ⟨found, stopped, hup⟩ : ∃ found stopped,
      Id.run (searchUp files (candidates directory)) = (found, stopped) := ⟨_, _, rfl⟩
  have hfound : (found.map Path.components).Nodup := by
    have hsublist := searchUp_sublist files (candidates directory)
    rw [hup] at hsublist
    exact (nodup_components_candidates directory).sublist (hsublist.map _)
  rw [discover_eq hup]
  split
  · exact hfound
  · -- The file at home comes in only if it is none of those before it.
    rw [List.map_append, List.nodup_append]
    refine ⟨hfound, ?_, ?_⟩
    · have hglobal : ((globalFile? home).toList.map Path.components).Nodup := by
        cases globalFile? home with
        | none => exact List.nodup_nil
        | some file => exact List.nodup_singleton _
      exact hglobal.sublist (List.filter_sublist.map _)
    · intro components hcomponents others hothers heq
      obtain ⟨path, hpath, rfl⟩ := List.mem_map.1 hcomponents
      obtain ⟨file, hfile, rfl⟩ := List.mem_map.1 hothers
      have hnone := (Bool.and_eq_true_iff.1 (List.mem_filter.1 hfile).2).2
      rw [Bool.not_eq_true', List.any_eq_false] at hnone
      exact hnone path hpath (beq_iff_eq.2 heq)

end Discovery

/-! ## Isolation -/

theorem load_congr_of_isRoot {files others : Files Id} {home : Option Path} {directory root : Path}
    {before after : List Path} (hsplit : candidates directory = before ++ root :: after)
    (hroot : IsRoot files root) (hbefore : ∀ path ∈ before, ¬ IsRoot files path)
    (h : ∀ path ∈ before ++ [root], files.SameAt others path) :
    load files home directory = load others home directory := by
  have hroot' : IsRoot others root :=
    hroot.congr (h root (List.mem_append_right _ (List.mem_singleton_self root)))
  have hsame : ∀ path ∈ before, files.SameAt others path :=
    fun path hpath => h path (List.mem_append_left _ hpath)
  have hbefore' : ∀ path ∈ before, ¬ IsRoot others path :=
    fun path hpath hroot => hbefore path hpath (hroot.congr (hsame path hpath).symm)
  have hpresent : present files before = present others before :=
    List.filter_congr fun path hpath => congrArg Id.run (hsame path hpath).isFile
  have hdiscover : Id.run (discover files home directory) =
      Id.run (discover others home directory) := by
    rw [discover_of_isRoot hsplit hroot hbefore, discover_of_isRoot hsplit hroot' hbefore',
      hpresent]
  show loadFrom files home (Id.run (discover files home directory)) =
    loadFrom others home (Id.run (discover others home directory))
  rw [← hdiscover, discover_of_isRoot hsplit hroot hbefore]
  apply loadFrom_congr
  intro path hpath
  apply h
  rcases List.mem_append.1 hpath with hpath | hpath
  · exact List.mem_append_left _ (List.mem_filter.1 hpath).1
  · exact List.mem_append_right _ hpath

/-- Of the settings files of a directory and those above it, those that are there are found up to
the first that is a root, the closest first. Without a root, the file at home is found behind them
if it is there and none of them. No file is found twice, and file systems that are the same up to
the nearest root have the same settings, or fail to have any in the same way, whatever is in the
files above it and at home. -/
theorem search_ends_at_root (files : Files Id) (home : Option Path) (directory : Path) :
    (∀ before root after, candidates directory = before ++ root :: after →
      IsRoot files root → (∀ path ∈ before, ¬ IsRoot files path) →
      Id.run (discover files home directory) = present files before ++ [root] ∧
        ∀ others : Files Id, (∀ path ∈ before ++ [root], files.SameAt others path) →
          load files home directory = load others home directory) ∧
    ((∀ path ∈ candidates directory, ¬ IsRoot files path) →
      Id.run (discover files home directory) =
        present files (candidates directory) ++
          globalBehind files home (present files (candidates directory))) ∧
    ((Id.run (discover files home directory)).map Path.components).Nodup :=
  ⟨fun _ _ _ hsplit hroot hbefore => ⟨discover_of_isRoot hsplit hroot hbefore,
    fun _ h => load_congr_of_isRoot hsplit hroot hbefore h⟩, discover_of_forall_not_isRoot,
    nodup_components_discover files home directory⟩

def seaFile : Path := ⟨"/work/sea/.vds.toml"⟩

def workFile : Path := ⟨"/work/.vds.toml"⟩

/-- A machine with a root at `/work` and settings below it. What there is elsewhere is left open. -/
def seaMachine (elsewhere : Files Id) : Files Id where
  isFile path := if path = seaFile ∨ path = workFile then true else elsewhere.isFile path
  read path :=
    if path = seaFile then .ok "[fields]\nprefix = \"record\"\n".toUTF8.data.toList
    else if path = workFile then .ok "root = true\n".toUTF8.data.toList
    else elsewhere.read path

/-- Below the root it does no harm if all other files are no text at all. Without a root, the file
at home comes last, and just once for what is below home. -/
theorem seaMachine_search_ends_at_root :
    let home : Option Path := some ⟨"/home"⟩
    let homeFile : Path := ⟨"/home/.vds.toml"⟩
    let missing : Files Id := ⟨fun _ => false, fun _ => .error (.opening "gone")⟩
    let corrupt : Files Id := ⟨fun _ => true, fun _ => .ok [255]⟩
    let silent : Files Id :=
      ⟨fun path => path == seaFile || path == homeFile, fun _ => .ok []⟩
    (Id.run (discover (seaMachine corrupt) home ⟨"/work/sea"⟩) = [seaFile, workFile] ∧
      load (seaMachine corrupt) home ⟨"/work/sea"⟩ = load (seaMachine missing) home ⟨"/work/sea"⟩ ∧
      (Id.run (load (seaMachine missing) home ⟨"/work/sea"⟩)).toOption.isSome = true ∧
      (Id.run (load (seaMachine corrupt) home ⟨"/"⟩)).toOption.isSome = false) ∧
    Id.run (discover silent home ⟨"/work/sea"⟩) = [seaFile, homeFile] ∧
    Id.run (discover silent home ⟨"/home/user/"⟩) = [homeFile] := by
  intro home homeFile missing corrupt silent
  have hsplit : candidates ⟨"/work/sea"⟩ = [seaFile] ++ workFile :: [⟨"/.vds.toml"⟩] := by
    decide +kernel
  have hroot : IsRoot (seaMachine corrupt) workFile :=
    ⟨rfl, isRootFile_eq_true_iff.1 (by decide +kernel)⟩
  have hsea : ∀ path ∈ [seaFile], ¬ IsRoot (seaMachine corrupt) path := by
    intro path hpath h
    rw [List.mem_singleton.1 hpath] at h
    exact absurd (isRootFile_eq_true_iff.2 h.2) (by decide +kernel)
  have hsame : ∀ path ∈ [seaFile] ++ [workFile],
      (seaMachine corrupt).SameAt (seaMachine missing) path :=
    List.forall_mem_cons.2 ⟨⟨rfl, rfl⟩, List.forall_mem_singleton.2 ⟨rfl, rfl⟩⟩
  obtain ⟨hfound, hload⟩ := (search_ends_at_root (seaMachine corrupt) home ⟨"/work/sea"⟩).1
    _ _ _ hsplit hroot hsea
  -- All files of the silent machine hold the same.
  have hquiet : Id.run (isRootFile silent seaFile) = false := by decide +kernel
  have hsilent : ∀ path, ¬ IsRoot silent path := by
    intro path h
    have htrue : Id.run (isRootFile silent seaFile) = true := isRootFile_eq_true_iff.2 h.2
    exact absurd (hquiet.symm.trans htrue) (by decide)
  have hopen := fun directory => (search_ends_at_root silent home directory).2.1
    fun path _ => hsilent path
  refine ⟨⟨hfound, hload _ hsame, by decide +kernel, by decide +kernel⟩, ?_, ?_⟩
  · rw [hopen]
    decide +kernel
  · rw [hopen]
    decide +kernel

end RecordQuery.Settings
