import RecordQuery.Proofs.Path.Components
import RecordQuery.Proofs.Settings.Merging
import RecordQuery.Proofs.Settings.Rendering

/-!
# Loading rendered settings

The text of settings can be put into a file that is loaded in their place. Main statement: such a
file brings back everything but the paths of boundary files, wherever it is put; it brings these
back wherever it is put just if all of them are absolute. Relative ones are seen from the directory
of the file, and from the directory for boundaries once more.
-/

namespace RecordQuery.Settings

open Region (Category)

/-! ## One rendered file -/

section OneFile

variable (settings : Settings)

/-- What a rendered file defines for a category when its texts stand for these files. -/
def overridesWith (files : Category → Path) : Region.PerCategory (Option BoundaryOverride) where
  country := some ⟨some (files .country), some (settings.sourceOf .country).nameKeys⟩
  marine := some ⟨some (files .marine), some (settings.sourceOf .marine).nameKeys⟩
  geography := some ⟨some (files .geography), some (settings.sourceOf .geography).nameKeys⟩

theorem addCategory_categoryEntry {home : Option Path} {file : Path} (path : Path)
    (boundaries : Boundaries) (category : Category)
    (hfile : expandHome home (settings.sourceOf category).path.text = .ok file) :
    Boundaries.addCategory home path boundaries (settings.categoryEntry category) =
      .ok { boundaries with
        overrides := boundaries.overrides.set category
          (some ⟨some file, some (settings.sourceOf category).nameKeys⟩) } := by
  rw [Boundaries.addCategory, categoryEntry, Category.ofName?_name]
  simp only [BoundariesLayer.over, hfile]
  rfl

theorem entries_categoryEntry : (SortedMap.ofList
    (categoriesByName.map settings.categoryEntry)).entries =
      categoriesByName.map settings.categoryEntry := by
  simp (disch := decide) only [SortedMap.ofList, SortedMap.insert, SortedMap.empty,
    categoriesByName, categoryEntry, Category.name, List.map_cons, List.map_nil, List.foldl_cons,
    List.foldl_nil, Entries.insert_nil, Entries.insert_cons_of_gt]

-- The categories go in one by one, in the order of their names.
theorem addSource_layerOf {home : Option Path} {path directory : Path} {files : Category → Path}
    (hdirectory : resolvePath home settings.directory.text
      (Source.directory ⟨path, settings.layerOf⟩) = .ok directory)
    (hfiles : ∀ category,
      expandHome home (settings.sourceOf category).path.text = .ok (files category)) :
    Boundaries.addSource home ⟨path, settings.layerOf⟩ Boundaries.standard =
      .ok ⟨directory, settings.overridesWith files⟩ := by
  have hadd := fun boundaries category =>
    settings.addCategory_categoryEntry path boundaries category (hfiles category)
  have hsource : Boundaries.addSource home ⟨path, settings.layerOf⟩ Boundaries.standard =
      (resolvePath home settings.directory.text (Source.directory ⟨path, settings.layerOf⟩) >>=
        fun directory => (SortedMap.ofList
          (categoriesByName.map settings.categoryEntry)).entries.foldlM
            (Boundaries.addCategory home path) ⟨directory, Boundaries.standard.overrides⟩) := rfl
  rw [hsource, hdirectory, entries_categoryEntry]
  simp only [categoriesByName, List.map_cons, List.map_nil, List.foldlM_cons, List.foldlM_nil,
    hadd]
  rfl

/-- A rendered file makes these settings by itself. -/
theorem merge_layerOf {home : Option Path} {path directory : Path} {files : Category → Path}
    (hdirectory : resolvePath home settings.directory.text
      (Source.directory ⟨path, settings.layerOf⟩) = .ok directory)
    (hfiles : ∀ category,
      expandHome home (settings.sourceOf category).path.text = .ok (files category)) :
    merge home [⟨path, settings.layerOf⟩] =
      .ok ⟨settings.defaultVersion, settings.fields, directory, settings.overridesWith files,
        some (Source.directory ⟨path, settings.layerOf⟩)⟩ := by
  have hboundaries : boundariesOf home [⟨path, settings.layerOf⟩] =
      .ok ⟨directory, settings.overridesWith files⟩ := by
    rw [boundariesOf_cons]
    exact settings.addSource_layerOf hdirectory hfiles
  have hversion : [(⟨path, settings.layerOf⟩ : Source)].findSome? (·.layer.version?) =
      settings.defaultVersion := by
    rw [List.findSome?_singleton]
    rfl
  rw [merge_eq, hboundaries, hversion]
  rfl

theorem sources_reloaded (directory : Path) (files : Category → Path) (origin : Option Path) :
    sources ⟨settings.defaultVersion, settings.fields, directory, settings.overridesWith files,
        origin⟩ =
      settings.sources.map fun source =>
        { source with path := directory.join (files source.category) } := by
  rw [sources_eq_map_sourceOf, sources_eq_map_sourceOf, List.map_map]
  refine List.map_congr_left fun category _ => ?_
  rw [Function.comp_apply, category_sourceOf]
  cases category <;> rfl

end OneFile

/-! ## Absolute paths -/

theorem expandHome_of_isAbsolute {path : Path} (h : path.isAbsolute = true)
    (home : Option Path) : expandHome home path.text = .ok path := by
  obtain ⟨rest, hrest⟩ := List.head?_eq_some_iff.1 (beq_iff_eq.1 h)
  unfold expandHome
  rw [hrest]
  rfl

theorem underHome_of_isAbsolute {path : Path} (h : path.isAbsolute = true) (home : Path) :
    underHome home path.text = path :=
  Except.ok.inj ((expandHome_some home path.text).symm.trans (expandHome_of_isAbsolute h _))

theorem resolvePath_of_isAbsolute {path : Path} (h : path.isAbsolute = true)
    (home : Option Path) (directory : Path) : resolvePath home path.text directory = .ok path := by
  rw [resolvePath, expandHome_of_isAbsolute h]
  show Except.ok (if path.isAbsolute then path else directory.join path) = _
  rw [if_pos h]

theorem isAbsolute_placed {directory : Path} (h : directory.isAbsolute = true) (home : Path)
    (text : String) : (placed home text directory).isAbsolute = true := by
  unfold placed
  split
  · assumption
  · exact Path.isAbsolute_join h _

theorem isAbsolute_sourceOf {settings : Settings} (h : settings.directory.isAbsolute = true)
    (category : Category) : (settings.sourceOf category).path.isAbsolute = true := by
  unfold sourceOf overridden
  split
  · exact Path.isAbsolute_join h _
  · dsimp only
    split
    · exact Path.isAbsolute_join h _
    · exact Path.isAbsolute_join h _

-- The directory is the one of the first file that sets one.
theorem isAbsolute_directory_of_merge {home : Path} {files : List Source} {settings : Settings}
    (h : merge (some home) files = .ok settings)
    (hset : ∃ file ∈ files, file.layer.directory?.isSome = true)
    (hfiles : ∀ file ∈ files, file.directory.isAbsolute = true) :
    settings.directory.isAbsolute = true := by
  have hdirectory := (firstDefined_of_merge h).directory
  obtain ⟨file, hfile, hset⟩ := hset
  have hsome : (files.findSome? fun source => source.layer.directory?.map fun text =>
      resolvePath (some home) text source.directory).isSome = true :=
    List.findSome?_isSome_iff.2 ⟨file, hfile, by rwa [Option.isSome_map]⟩
  obtain ⟨resolved, hresolved⟩ := Option.isSome_iff_exists.1 hsome
  obtain ⟨first, hfirst, htext⟩ := List.exists_of_findSome?_eq_some hresolved
  obtain ⟨text, _, hplaced⟩ := Option.map_eq_some_iff.1 htext
  rw [hresolved, Option.getD_some, ← hplaced, resolvePath_some] at hdirectory
  rw [Except.ok.inj hdirectory]
  exact isAbsolute_placed (hfiles first hfirst) home text

/-! ## Loading what was written -/

/-- Settings say the same, wherever they come from and however they say it. -/
structure SaysSame (settings other : Settings) : Prop where
  defaultVersion : settings.defaultVersion = other.defaultVersion
  fields : settings.fields = other.fields
  sources : settings.sources = other.sources

/-- What comes of settings when their text is loaded from a file: the directory for boundaries is
seen from the one of the file, and boundary files are seen from it. -/
structure Reloaded (home path : Path) (settings reloaded : Settings) : Prop where
  defaultVersion : reloaded.defaultVersion = settings.defaultVersion
  fields : reloaded.fields = settings.fields
  sources : reloaded.sources = settings.sources.map fun source =>
    { source with
      path := (placed home settings.directory.text (path.parent?.getD ⟨"."⟩)).join
        (underHome home source.path.text) }

theorem map_path_eq_self {sources : List Region.Source} {moved : Region.Source → Path}
    (h : ∀ source ∈ sources, moved source = source.path) :
    sources.map (fun source => { source with path := moved source }) = sources := by
  rw [List.map_congr_left (g := id) fun source hsource => ?_, List.map_id]
  rw [h source hsource]
  rfl

section Loading

variable (settings : Settings)

theorem exists_reloaded (home path : Path) : ∃ reloaded,
    merge (some home) [⟨path, settings.layerOf⟩] = .ok reloaded ∧
      Reloaded home path settings reloaded := by
  refine ⟨_, settings.merge_layerOf (resolvePath_some home settings.directory.text _)
    fun category => expandHome_some home (settings.sourceOf category).path.text, rfl, rfl, ?_⟩
  rw [sources_reloaded]
  refine List.map_congr_left fun source hsource => ?_
  rw [sources_eq_map_sourceOf] at hsource
  obtain ⟨category, _, rfl⟩ := List.mem_map.1 hsource
  rw [category_sourceOf]
  rfl

-- From the root, every path that is loaded is absolute; an absolute one is left as it is.
theorem sources_reloaded_iff :
    (∀ home path reloaded, merge (some home) [⟨path, settings.layerOf⟩] = .ok reloaded →
      reloaded.sources = settings.sources) ↔
      ∀ source ∈ settings.sources, source.path.isAbsolute = true := by
  constructor
  · intro h source hsource
    obtain ⟨reloaded, hmerge, hreloaded⟩ := settings.exists_reloaded ⟨"/"⟩ ⟨"/.vds.toml"⟩
    rw [← h _ _ _ hmerge, hreloaded.sources] at hsource
    obtain ⟨source, _, rfl⟩ := List.mem_map.1 hsource
    have hroot : (Path.parent? ⟨"/.vds.toml"⟩).getD ⟨"."⟩ = ⟨"/"⟩ := by decide +kernel
    rw [hroot]
    exact Path.isAbsolute_join (isAbsolute_placed (by decide) _ _) _
  · intro h home path reloaded hmerge
    obtain ⟨same, hsame, hreloaded⟩ := settings.exists_reloaded home path
    obtain rfl := Except.ok.inj (hsame.symm.trans hmerge)
    rw [hreloaded.sources]
    refine map_path_eq_self fun source hsource => ?_
    have hpath := h source hsource
    rw [underHome_of_isAbsolute hpath, Path.join_of_isAbsolute hpath]

theorem exists_saysSame (h : settings.directory.isAbsolute = true) (home : Option Path)
    (path : Path) : ∃ reloaded,
      merge home [⟨path, settings.layerOf⟩] = .ok reloaded ∧ SaysSame reloaded settings := by
  have hsource := isAbsolute_sourceOf h
  refine ⟨_, settings.merge_layerOf (resolvePath_of_isAbsolute h home _)
    fun category => expandHome_of_isAbsolute (hsource category) home, rfl, rfl, ?_⟩
  rw [sources_reloaded]
  refine map_path_eq_self fun source hmem => ?_
  rw [sources_eq_map_sourceOf] at hmem
  obtain ⟨category, _, rfl⟩ := List.mem_map.1 hmem
  rw [category_sourceOf, Path.join_of_isAbsolute (hsource category)]

end Loading

/-- The text of settings is read as a file. This brings back everything but the paths of boundary
files wherever it is put, and these too wherever it is put just if all of them are absolute. They
are if the directory for boundaries is, and so it is when files in absolute directories set it. -/
theorem render_loads_same_iff_absolute (settings : Settings) :
    ∃ layer, Layer.parse? settings.render = some layer ∧
      (∀ home path, ∃ reloaded, merge (some home) [⟨path, layer⟩] = .ok reloaded ∧
        Reloaded home path settings reloaded) ∧
      ((∀ home path reloaded, merge (some home) [⟨path, layer⟩] = .ok reloaded →
        reloaded.sources = settings.sources) ↔
        ∀ source ∈ settings.sources, source.path.isAbsolute = true) ∧
      (settings.directory.isAbsolute = true → ∀ home path, ∃ reloaded,
        merge home [⟨path, layer⟩] = .ok reloaded ∧ SaysSame reloaded settings) ∧
      ∀ home files, merge (some home) files = .ok settings →
        (∃ file ∈ files, file.layer.directory?.isSome = true) →
        (∀ file ∈ files, file.directory.isAbsolute = true) →
        settings.directory.isAbsolute = true :=
  ⟨settings.layerOf, settings.parse?_render, settings.exists_reloaded,
    settings.sources_reloaded_iff, settings.exists_saysSame,
    fun _ _ => isAbsolute_directory_of_merge⟩

/-- The settings of a project, whose directory for boundaries is in the home directory, are the same
when what they are written as is loaded from elsewhere. -/
theorem projectSettings_loads_same :
    let files := [projectFile, sharedFile]
    merge (some ⟨"/home"⟩) files = .ok projectSettings ∧
    (∃ file ∈ files, file.layer.directory?.isSome = true) ∧
    (∀ file ∈ files, file.directory.isAbsolute = true) ∧
    (∀ source ∈ projectSettings.sources, source.path.isAbsolute = true) ∧
    ∃ layer, Layer.parse? projectSettings.render = some layer ∧
      (∃ reloaded, merge (some ⟨"/root"⟩) [⟨⟨"elsewhere/.vds.toml"⟩, layer⟩] = .ok reloaded ∧
        reloaded.sources = projectSettings.sources) ∧
      ∃ reloaded, merge none [⟨⟨".vds.toml"⟩, layer⟩] = .ok reloaded ∧
        SaysSame reloaded projectSettings := by
  intro files
  obtain ⟨layer, hlayer, hreloads, hiff, hsame, hdirectory⟩ :=
    render_loads_same_iff_absolute projectSettings
  have hmerge : merge (some ⟨"/home"⟩) files = .ok projectSettings := by decide +kernel
  have hset : ∃ file ∈ files, file.layer.directory?.isSome = true :=
    ⟨sharedFile, List.mem_cons_of_mem _ List.mem_cons_self, rfl⟩
  have hfiles : ∀ file ∈ files, file.directory.isAbsolute = true := by decide +kernel
  have hsources : ∀ source ∈ projectSettings.sources, source.path.isAbsolute = true := by
    decide +kernel
  obtain ⟨moved, hmoved, _⟩ := hreloads ⟨"/root"⟩ ⟨"elsewhere/.vds.toml"⟩
  exact ⟨hmerge, hset, hfiles, hsources, layer, hlayer,
    ⟨moved, hmoved, hiff.2 hsources _ _ moved hmoved⟩,
    hsame (hdirectory _ files hmerge hset hfiles) none ⟨".vds.toml"⟩⟩

/-- With no file at all, the directory for boundaries is relative. Loaded from a file of the working
directory it is looked for in itself. -/
theorem standard_loads_other :
    merge (some ⟨"/home"⟩) [] = .ok standard ∧
    ∃ layer, Layer.parse? standard.render = some layer ∧
      ∃ reloaded, merge (some ⟨"/home"⟩) [⟨⟨".vds.toml"⟩, layer⟩] = .ok reloaded ∧
        reloaded.sources ≠ standard.sources ∧
        reloaded.sources.map (·.path) =
          [⟨"regions/regions/50m-admin-0-countries-v4.1.0.geojson"⟩,
            ⟨"regions/regions/50m-marine-regions-v4.1.0.geojson"⟩,
            ⟨"regions/regions/50m-geography-regions-v4.1.0.geojson"⟩] := by
  obtain ⟨reloaded, hmerge, hreloaded⟩ := standard.exists_reloaded ⟨"/home"⟩ ⟨".vds.toml"⟩
  refine ⟨rfl, standard.layerOf, standard.parse?_render, reloaded, hmerge, ?_, ?_⟩
  · rw [hreloaded.sources]
    decide +kernel
  · rw [hreloaded.sources]
    decide +kernel

end RecordQuery.Settings
