import RecordQuery.Proofs.Outcome
import RecordQuery.Settings.Merge

/-!
# Which file decides what

Settings files are merged key by key. Main statement: for every key the first file that defines it
counts, a table for a category that does not exist spoils everything wherever it stands, and a file
below all others changes nothing if all its keys are defined above it.
-/

namespace RecordQuery

open Region (Category)

namespace Settings

/-! ## What a file defines -/

namespace Layer

def version? (layer : Layer) : Option String := layer.schema.join

def base? (layer : Layer) : Option String := layer.fields.bind (·.base)

def allText? (layer : Layer) : Option String := layer.fields.bind (·.allText)

def geo? (layer : Layer) : Option String := layer.fields.bind (·.geo)

def directory? (layer : Layer) : Option String := layer.regions.bind (·.directory)

/-- The names of the categories that a file has tables for, in order. -/
def categoryNames (layer : Layer) : List String :=
  match layer.regions with
  | some regions => regions.categories.keys
  | none => []

/-- The table of a category. -/
def category? (layer : Layer) (category : Category) : Option BoundariesLayer :=
  layer.regions.bind (·.categories.get? category.name)

def file? (layer : Layer) (category : Category) : Option String :=
  (layer.category? category).bind (·.file)

def nameKeys? (layer : Layer) (category : Category) : Option (List String) :=
  (layer.category? category).bind (·.nameKeys)

/-- The file has a table of this name, and no category is called so. -/
def Strays (layer : Layer) (name : String) : Prop :=
  name ∈ layer.categoryNames ∧ Category.ofName? name = none

/-- The first table that is for no category. -/
def stray? (layer : Layer) : Option String :=
  layer.categoryNames.find? fun name => (Category.ofName? name).isNone

end Layer

/-! ## Categories -/

section Overrides

variable (overrides : Region.PerCategory (Option BoundaryOverride)) (category : Category)

/-- The file that stands in for the default one of a category. -/
def fileIn? : Option Path := (overrides.get category).bind (·.file)

/-- The keys that stand in for the default ones of a category. -/
def nameKeysIn? : Option (List String) := (overrides.get category).bind (·.nameKeys)

end Overrides

/-- Each category has one source, in the directory and with what overrides its defaults. -/
theorem sources_eq (settings : Settings) :
    settings.sources = [Category.country, .marine, .geography].map fun category =>
      ⟨category,
        settings.directory.join
          ((fileIn? settings.overrides category).getD ⟨category.defaultFile⟩),
        (nameKeysIn? settings.overrides category).getD category.defaultNameKeys⟩ := by
  rw [sources, Region.Source.defaultsIn, List.map_map]
  refine List.map_congr_left fun category _ => ?_
  simp only [Function.comp_apply, overridden, fileIn?, nameKeysIn?]
  cases settings.overrides.get category with
  | none => rfl
  | some override =>
    obtain ⟨file, nameKeys⟩ := override
    cases file <;> rfl

/-! ## Paths under a known home directory -/

/-- The path a text stands for when the home directory is known. -/
def underHome (home : Path) (text : String) : Path :=
  match text.toList with
  | ['~'] => home
  | '~' :: '/' :: rest => home.join ⟨String.ofList rest⟩
  | _ => ⟨text⟩

/-- The same for a text in a file of a directory. -/
def placed (home : Path) (text : String) (directory : Path) : Path :=
  if (underHome home text).isAbsolute then underHome home text
  else directory.join (underHome home text)

theorem expandHome_some (home : Path) (text : String) :
    expandHome (some home) text = .ok (underHome home text) := by
  unfold expandHome underHome
  split <;> simp_all only [imp_false]

theorem resolvePath_some (home : Path) (text : String) (directory : Path) :
    resolvePath (some home) text directory = .ok (placed home text directory) := by
  rw [resolvePath, expandHome_some]
  rfl

/-! ## One file -/

section OneFile

variable {home : Path} {source : Source}

-- What a table says of a category counts, and what is said below it where the table is silent.
theorem BoundariesLayer.over_some (home : Path) (layer : BoundariesLayer)
    (below : Option BoundaryOverride) :
    layer.over (some home) below =
      .ok ⟨(layer.file.map (underHome home)).or (below.bind (·.file)),
        layer.nameKeys.or (below.bind (·.nameKeys))⟩ := by
  obtain ⟨file, nameKeys⟩ := layer
  unfold BoundariesLayer.over
  cases file with
  | none => cases nameKeys <;> cases below <;> rfl
  | some text =>
    simp only [expandHome_some]
    cases nameKeys <;> cases below <;> rfl

theorem failure?_addCategory (home path : Path) (boundaries : Boundaries)
    (entry : String × BoundariesLayer) :
    failure? (Boundaries.addCategory (some home) path boundaries entry) =
      if (Category.ofName? entry.1).isNone then some (.unknownCategory path entry.1)
      else none := by
  unfold Boundaries.addCategory
  cases Category.ofName? entry.1 with
  | none => rfl
  | some category =>
    simp only [BoundariesLayer.over_some]
    rfl

theorem addCategory_eq_ok {path : Path} {boundaries next : Boundaries} {name : String}
    {layer : BoundariesLayer}
    (h : Boundaries.addCategory (some home) path boundaries (name, layer) = .ok next) :
    ∃ category, Category.ofName? name = some category ∧
      next = { boundaries with
        overrides := boundaries.overrides.set category (some
          ⟨(layer.file.map (underHome home)).or (fileIn? boundaries.overrides category),
            layer.nameKeys.or (nameKeysIn? boundaries.overrides category)⟩) } := by
  unfold Boundaries.addCategory at h
  split at h
  · exact nomatch h
  · rename_i category hcategory
    simp only [BoundariesLayer.over_some] at h
    exact ⟨category, hcategory, (Except.ok.inj h).symm⟩

/-- What stands over some boundaries is what tables say of the categories, and what is said below
where they are silent. -/
structure Over (home : Path) (table : Category → Option BoundariesLayer)
    (below next : Boundaries) : Prop where
  file : ∀ category, fileIn? next.overrides category =
    (((table category).bind (·.file)).map (underHome home)).or (fileIn? below.overrides category)
  nameKeys : ∀ category, nameKeysIn? next.overrides category =
    ((table category).bind (·.nameKeys)).or (nameKeysIn? below.overrides category)

-- The tables of one file are for different categories, so none of them is lost.
theorem over_of_foldlM_addCategory {path : Path} {entries : List (String × BoundariesLayer)}
    (hordered : Entries.Ordered entries) {below next : Boundaries}
    (h : entries.foldlM (Boundaries.addCategory (some home) path) below = .ok next) :
    next.directory = below.directory ∧
      Over home (fun category => Entries.find? category.name entries) below next := by
  induction entries generalizing below with
  | nil =>
    obtain rfl := Except.ok.inj h
    exact ⟨rfl, fun _ => rfl, fun _ => rfl⟩
  | cons entry rest ih =>
    obtain ⟨name, layer⟩ := entry
    obtain ⟨hname, hrest⟩ := List.pairwise_cons.1 hordered
    rw [List.foldlM_cons] at h
    obtain ⟨mid, hmid, h⟩ := bind_eq_ok_iff.1 h
    obtain ⟨own, hown, rfl⟩ := addCategory_eq_ok hmid
    obtain ⟨hdirectory, hover⟩ := ih hrest h
    have hsame : ∀ category : Category, name = category.name ↔ own = category := by
      intro category
      constructor
      · rintro rfl
        exact Option.some.inj (hown.symm.trans (Category.ofName?_name category))
      · rintro rfl
        exact (Category.name_of_ofName? hown).symm
    -- The table in front is the only one of its category.
    have hsilent : Entries.find? own.name rest = none := by
      rw [Entries.find?_eq_none_iff]
      intro other hother heq
      have hlt := hname other hother
      rw [heq, (hsame own).2 rfl] at hlt
      exact String.lt_irrefl _ hlt
    refine ⟨hdirectory, fun category => ?_, fun category => ?_⟩
    · rw [hover.file, fileIn?, Region.PerCategory.get_set]
      by_cases hcategory : own = category
      · subst hcategory
        simp [Entries.find?, hsame, hsilent]
      · simp [Entries.find?, hsame, hcategory, fileIn?]
    · rw [hover.nameKeys, nameKeysIn?, Region.PerCategory.get_set]
      by_cases hcategory : own = category
      · subst hcategory
        simp [Entries.find?, hsame, hsilent]
      · simp [Entries.find?, hsame, hcategory, nameKeysIn?]

theorem addSource_of_regions {regions : RegionsLayer} (below : Boundaries)
    (h : source.layer.regions = some regions) :
    Boundaries.addSource (some home) source below =
      regions.categories.entries.foldlM (Boundaries.addCategory (some home) source.path)
        { below with
          directory := (regions.directory.map (placed home · source.directory)).getD
            below.directory } := by
  unfold Boundaries.addSource
  rw [h]
  obtain ⟨directory, categories⟩ := regions
  cases directory with
  | none => rfl
  | some text =>
    simp only [resolvePath_some]
    rfl

/-- What a file says about boundaries stands over what is said below it. -/
theorem addSource_eq_ok {below next : Boundaries}
    (h : Boundaries.addSource (some home) source below = .ok next) :
    next.directory =
        (source.layer.directory?.map (placed home · source.directory)).getD below.directory ∧
      Over home source.layer.category? below next := by
  unfold Layer.directory? Layer.category?
  cases hregions : source.layer.regions with
  | none =>
    unfold Boundaries.addSource at h
    rw [hregions] at h
    obtain rfl := Except.ok.inj h
    exact ⟨rfl, fun _ => rfl, fun _ => rfl⟩
  | some regions =>
    rw [addSource_of_regions below hregions] at h
    obtain ⟨hdirectory, hover⟩ := over_of_foldlM_addCategory regions.categories.ordered h
    exact ⟨hdirectory, hover.file, hover.nameKeys⟩

/-- A file is refused for its first table that is for no category, and for nothing else. -/
theorem failure?_addSource (home : Path) (source : Source) (below : Boundaries) :
    failure? (Boundaries.addSource (some home) source below) =
      source.layer.stray?.map (.unknownCategory source.path) := by
  unfold Layer.stray? Layer.categoryNames
  cases hregions : source.layer.regions with
  | none =>
    unfold Boundaries.addSource
    rw [hregions]
    rfl
  | some regions =>
    rw [addSource_of_regions below hregions,
      failure?_foldlM (failure?_addCategory home source.path)]
    show _ = Option.map _ ((regions.categories.entries.map (·.1)).find? _)
    induction regions.categories.entries with
    | nil => rfl
    | cons entry rest ih =>
      rw [List.findSome?_cons, List.map_cons, List.find?_cons]
      cases (Category.ofName? entry.1).isNone with
      | true => rfl
      | false => exact ih

end OneFile

/-! ## All files -/

/-- What files say about boundaries together. -/
def boundariesOf (home : Option Path) (sources : List Source) : Except Error Boundaries :=
  sources.reverse.foldlM (fun below source => Boundaries.addSource home source below)
    Boundaries.standard

section AllFiles

variable {home : Path} {sources : List Source}

theorem boundariesOf_cons (home : Option Path) (source : Source) (rest : List Source) :
    boundariesOf home (source :: rest) =
      boundariesOf home rest >>= fun below => Boundaries.addSource home source below := by
  rw [boundariesOf, List.reverse_cons, List.foldlM_append]
  refine bind_congr fun below => ?_
  rw [List.foldlM_cons]
  exact bind_pure (Boundaries.addSource home source below)

/-- What the first file that defines it says counts, for each key by itself. -/
theorem boundariesOf_eq_ok {boundaries : Boundaries}
    (h : boundariesOf (some home) sources = .ok boundaries) :
    boundaries.directory = (sources.findSome? fun source =>
        source.layer.directory?.map (placed home · source.directory)).getD ⟨"regions"⟩ ∧
      (∀ category, fileIn? boundaries.overrides category =
        (sources.findSome? (·.layer.file? category)).map (underHome home)) ∧
      ∀ category, nameKeysIn? boundaries.overrides category =
        sources.findSome? (·.layer.nameKeys? category) := by
  induction sources generalizing boundaries with
  | nil =>
    obtain rfl := Except.ok.inj h
    refine ⟨rfl, fun category => ?_, fun category => ?_⟩
    · cases category <;> rfl
    · cases category <;> rfl
  | cons source rest ih =>
    rw [boundariesOf_cons] at h
    obtain ⟨below, hbelow, h⟩ := bind_eq_ok_iff.1 h
    obtain ⟨hdirectory, hover⟩ := addSource_eq_ok h
    obtain ⟨ihdirectory, ihfile, ihnameKeys⟩ := ih hbelow
    refine ⟨?_, fun category => ?_, fun category => ?_⟩
    · rw [hdirectory, ihdirectory, List.findSome?_cons]
      cases source.layer.directory? <;> rfl
    · rw [hover.file, ihfile, List.findSome?_cons, ← Layer.file?]
      cases source.layer.file? category <;> rfl
    · rw [hover.nameKeys, ihnameKeys, List.findSome?_cons, ← Layer.nameKeys?]
      cases source.layer.nameKeys? category <;> rfl

theorem failure?_boundariesOf (home : Path) (sources : List Source) :
    failure? (boundariesOf (some home) sources) =
      sources.reverse.findSome? fun source =>
        source.layer.stray?.map (.unknownCategory source.path) :=
  failure?_foldlM (fun below source => failure?_addSource home source below) _ _

/-- The names of fields that files give together. -/
def fieldNamesOf (sources : List Source) : FieldNames :=
  sources.foldr
    (fun source below =>
      match source.layer.fields with
      | some layer => layer.over below
      | none => below)
    FieldNames.standard

theorem fieldNamesOf_eq (sources : List Source) :
    fieldNamesOf sources =
      ⟨(sources.findSome? (·.layer.base?)).getD "data",
        (sources.findSome? (·.layer.allText?)).getD "meta.all",
        (sources.findSome? (·.layer.geo?)).getD "meta.geo"⟩ := by
  induction sources with
  | nil => rfl
  | cons source rest ih =>
    rw [fieldNamesOf, List.foldr_cons, ← fieldNamesOf, ih]
    simp only [List.findSome?_cons, Layer.base?, Layer.allText?, Layer.geo?]
    cases source.layer.fields with
    | none => rfl
    | some layer =>
      obtain ⟨base, allText, geo⟩ := layer
      cases base <;> cases allText <;> cases geo <;> rfl

theorem merge_eq (home : Option Path) (sources : List Source) :
    merge home sources = boundariesOf home sources >>= fun boundaries => .ok
      ⟨sources.findSome? (·.layer.version?), fieldNamesOf sources, boundaries.directory,
        boundaries.overrides, sources.head?.map Source.directory⟩ := rfl

/-- The settings are what the first file that defines a key says of it, or the default if no file
defines it; texts that stand for paths are seen from that file. -/
structure FirstDefined (home : Path) (sources : List Source) (settings : Settings) : Prop where
  defaultVersion : settings.defaultVersion = sources.findSome? (·.layer.version?)
  base : settings.fields.base = (sources.findSome? (·.layer.base?)).getD "data"
  allText : settings.fields.allText = (sources.findSome? (·.layer.allText?)).getD "meta.all"
  geo : settings.fields.geo = (sources.findSome? (·.layer.geo?)).getD "meta.geo"
  directory : .ok settings.directory =
    (sources.findSome? fun source => source.layer.directory?.map fun text =>
      resolvePath (some home) text source.directory).getD (.ok ⟨"regions"⟩)
  file : ∀ category, (fileIn? settings.overrides category).map .ok =
    (sources.findSome? (·.layer.file? category)).map (expandHome (some home))
  nameKeys : ∀ category, nameKeysIn? settings.overrides category =
    sources.findSome? (·.layer.nameKeys? category)
  sources : settings.sources = [Category.country, .marine, .geography].map fun category =>
    ⟨category,
      settings.directory.join ((fileIn? settings.overrides category).getD ⟨category.defaultFile⟩),
      (nameKeysIn? settings.overrides category).getD category.defaultNameKeys⟩

theorem firstDefined_of_merge {settings : Settings}
    (h : merge (some home) sources = .ok settings) : FirstDefined home sources settings := by
  rw [merge_eq] at h
  obtain ⟨boundaries, hboundaries, h⟩ := bind_eq_ok_iff.1 h
  obtain rfl := Except.ok.inj h
  obtain ⟨hdirectory, hfile, hnameKeys⟩ := boundariesOf_eq_ok hboundaries
  have hfields := fieldNamesOf_eq sources
  refine ⟨rfl, congrArg FieldNames.base hfields, congrArg FieldNames.allText hfields,
    congrArg FieldNames.geo hfields, ?_, fun category => ?_, hnameKeys, sources_eq _⟩
  · have hplaced : (sources.findSome? fun source => source.layer.directory?.map fun text =>
        resolvePath (some home) text source.directory) =
        (sources.findSome? fun source =>
          source.layer.directory?.map (placed home · source.directory)).map .ok := by
      rw [List.map_findSome?]
      simp only [resolvePath_some, Function.comp_def, Option.map_map]
    rw [hplaced, hdirectory, Option.getD_map]
  · have hunder : expandHome (some home) = .ok ∘ underHome home :=
      funext (expandHome_some home)
    rw [hfile, hunder, Option.map_map]

/-! ## Categories that do not exist -/

/-- Of the files with a table for no category this is the lowest, and of its tables for no category
this one has the least name. -/
structure LastStray (sources : List Source) (source : Source) (name : String) : Prop where
  strays : source.layer.Strays name
  least : ∀ other, source.layer.Strays other → name ≤ other
  lowest : ∃ before after, sources = before ++ source :: after ∧
    ∀ later ∈ after, ∀ other, ¬ later.layer.Strays other

theorem Layer.stray?_eq_none_iff {layer : Layer} :
    layer.stray? = none ↔ ∀ name, ¬ layer.Strays name := by
  simp only [stray?, List.find?_eq_none, Strays, Option.isNone_iff_eq_none, not_and]

theorem Layer.pairwise_categoryNames (layer : Layer) :
    layer.categoryNames.Pairwise (· < ·) := by
  unfold categoryNames
  split
  · exact SortedMap.pairwise_keys _
  · exact .nil

-- Names come in order, so the first stray has the least of their names.
theorem Layer.strays_of_stray? {layer : Layer} {name : String} (h : layer.stray? = some name) :
    layer.Strays name ∧ ∀ other, layer.Strays other → name ≤ other := by
  obtain ⟨hname, before, after, hnames, hbefore⟩ := List.find?_eq_some_iff_append.1 h
  refine ⟨⟨List.mem_of_find?_eq_some h, Option.isNone_iff_eq_none.1 hname⟩, ?_⟩
  rintro other ⟨hmem, hother⟩
  have hordered := layer.pairwise_categoryNames
  rw [hnames, List.pairwise_append, List.pairwise_cons] at hordered
  rw [hnames] at hmem
  rcases List.mem_append.1 hmem with hmem | hmem
  · -- Whatever stands in front of the first stray is a category.
    have hfound := hbefore other hmem
    rw [hother] at hfound
    exact absurd hfound (by decide)
  · rcases List.mem_cons.1 hmem with rfl | hmem
    · exact String.le_refl other
    · exact Std.le_of_lt (hordered.2.1.1 other hmem)

theorem Layer.stray?_eq_some_iff {layer : Layer} {name : String} :
    layer.stray? = some name ↔
      layer.Strays name ∧ ∀ other, layer.Strays other → name ≤ other := by
  refine ⟨Layer.strays_of_stray?, fun ⟨hstrays, hleast⟩ => ?_⟩
  cases hfirst : layer.stray? with
  | none => exact absurd hstrays (Layer.stray?_eq_none_iff.1 hfirst name)
  | some first =>
    obtain ⟨hfirstStrays, hfirstLeast⟩ := Layer.strays_of_stray? hfirst
    exact congrArg some
      (String.le_antisymm (hfirstLeast name hstrays) (hleast first hfirstStrays))

theorem failure?_merge (home : Path) (sources : List Source) :
    failure? (merge (some home) sources) =
      sources.reverse.findSome? fun source =>
        source.layer.stray?.map (.unknownCategory source.path) := by
  rw [merge_eq, failure?_bind fun _ _ => failure?_ok _, Option.or_none, failure?_boundariesOf]

theorem merge_eq_error_iff {error : Error} :
    merge (some home) sources = .error error ↔ ∃ source name,
      LastStray sources source name ∧ error = .unknownCategory source.path name := by
  rw [← failure?_eq_some_iff, failure?_merge, List.findSome?_eq_some_iff]
  constructor
  · rintro ⟨after, source, before, hreverse, hsource, hafter⟩
    obtain ⟨name, hname, rfl⟩ := Option.map_eq_some_iff.1 hsource
    obtain ⟨hstrays, hleast⟩ := Layer.strays_of_stray? hname
    refine ⟨source, name, ⟨hstrays, hleast, before.reverse, after.reverse, ?_, ?_⟩, rfl⟩
    · rw [List.reverse_eq_iff] at hreverse
      rw [hreverse, List.reverse_append, List.reverse_cons, List.append_assoc,
        List.singleton_append]
    · intro later hlater
      have hnone := hafter later (List.mem_reverse.1 hlater)
      exact Layer.stray?_eq_none_iff.1 (Option.map_eq_none_iff.1 hnone)
  · rintro ⟨source, name, ⟨hstrays, hleast, before, after, rfl, hafter⟩, rfl⟩
    refine ⟨after.reverse, source, before.reverse, ?_, ?_, fun later hlater => ?_⟩
    · rw [List.reverse_append, List.reverse_cons, List.append_assoc, List.singleton_append]
    · rw [Layer.stray?_eq_some_iff.2 ⟨hstrays, hleast⟩, Option.map_some]
    · have hnone := hafter later (List.mem_reverse.1 hlater)
      rw [Layer.stray?_eq_none_iff.2 hnone, Option.map_none]

theorem Layer.isSome_stray?_iff {layer : Layer} :
    layer.stray?.isSome ↔ ∃ name, layer.Strays name := by
  rw [← not_iff_not, Option.not_isSome_iff_eq_none, Layer.stray?_eq_none_iff, not_exists]

theorem exists_merge_eq_error_iff :
    (∃ error, merge (some home) sources = .error error) ↔
      ∃ source ∈ sources, ∃ name, source.layer.Strays name := by
  simp only [← failure?_eq_some_iff, ← Option.isSome_iff_exists, failure?_merge,
    List.findSome?_isSome_iff, List.mem_reverse, Option.isSome_map, Layer.isSome_stray?_iff]

/-! ## Files below all others -/

/-- What a file can define. -/
inductive Key where
  | defaultVersion
  | base
  | allText
  | geo
  | directory
  | file (category : Category)
  | nameKeys (category : Category)

/-- Whether a file defines a key. -/
def Layer.defines (layer : Layer) : Key → Bool
  | .defaultVersion => layer.version?.isSome
  | .base => layer.base?.isSome
  | .allText => layer.allText?.isSome
  | .geo => layer.geo?.isSome
  | .directory => layer.directory?.isSome
  | .file category => (layer.file? category).isSome
  | .nameKeys category => (layer.nameKeys? category).isSome

/-- A file has tables for categories only, and defines only keys that some of the others define. -/
structure Shadowed (sources : List Source) (lowest : Source) : Prop where
  strays : ∀ name, ¬ lowest.layer.Strays name
  defined : ∀ key, lowest.layer.defines key = true →
    ∃ source ∈ sources, source.layer.defines key = true

/-- The settings are the same but for where they come from, and for overrides that override
nothing. -/
structure SameEffect (settings other : Settings) : Prop where
  defaultVersion : settings.defaultVersion = other.defaultVersion
  fields : settings.fields = other.fields
  directory : settings.directory = other.directory
  file : ∀ category, fileIn? settings.overrides category = fileIn? other.overrides category
  nameKeys : ∀ category,
    nameKeysIn? settings.overrides category = nameKeysIn? other.overrides category
  sources : settings.sources = other.sources

theorem FirstDefined.sameEffect {settings other : Settings}
    (h : FirstDefined home sources settings) (hother : FirstDefined home sources other) :
    SameEffect settings other := by
  have hbase := h.base.trans hother.base.symm
  have hallText := h.allText.trans hother.allText.symm
  have hgeo := h.geo.trans hother.geo.symm
  have hdirectory : settings.directory = other.directory :=
    Except.ok.inj (h.directory.trans hother.directory.symm)
  have hfile : ∀ category,
      fileIn? settings.overrides category = fileIn? other.overrides category := by
    intro category
    have hinj : Function.Injective (Except.ok : Path → Except Error Path) :=
      fun _ _ => Except.ok.inj
    exact Option.map_injective hinj ((h.file category).trans (hother.file category).symm)
  have hnameKeys : ∀ category,
      nameKeysIn? settings.overrides category = nameKeysIn? other.overrides category :=
    fun category => (h.nameKeys category).trans (hother.nameKeys category).symm
  refine ⟨h.defaultVersion.trans hother.defaultVersion.symm, ?_, hdirectory, hfile, hnameKeys, ?_⟩
  · exact FieldNames.mk.injEq .. ▸ ⟨hbase, hallText, hgeo⟩
  · simp only [h.sources, hother.sources, hdirectory, hfile, hnameKeys]

section Lowest

variable {lowest : Source}

-- What the lowest file says is not heard where a file above it speaks.
theorem Shadowed.findSome?_eq (hlowest : Shadowed sources lowest) (key : Key) {α : Type}
    {said : Source → Option α} (hsaid : ∀ source, (said source).isSome = source.layer.defines key) :
    (sources ++ [lowest]).findSome? said = sources.findSome? said := by
  rw [List.findSome?_append, List.findSome?_singleton]
  cases hlast : said lowest with
  | none => exact Option.or_none
  | some value =>
    have hdefined : lowest.layer.defines key = true := by
      rw [← hsaid, hlast, Option.isSome_some]
    obtain ⟨source, hsource, habove⟩ := hlowest.defined key hdefined
    rw [← hsaid] at habove
    obtain ⟨first, hfirst⟩ :=
      Option.isSome_iff_exists.1 (List.findSome?_isSome_iff.2 ⟨source, hsource, habove⟩)
    rw [hfirst, Option.some_or]

theorem FirstDefined.of_lowest {settings : Settings} (hlowest : Shadowed sources lowest)
    (h : FirstDefined home (sources ++ [lowest]) settings) :
    FirstDefined home sources settings where
  defaultVersion := by rw [h.defaultVersion, hlowest.findSome?_eq .defaultVersion fun _ => rfl]
  base := by rw [h.base, hlowest.findSome?_eq .base fun _ => rfl]
  allText := by rw [h.allText, hlowest.findSome?_eq .allText fun _ => rfl]
  geo := by rw [h.geo, hlowest.findSome?_eq .geo fun _ => rfl]
  directory := by rw [h.directory, hlowest.findSome?_eq .directory fun _ => Option.isSome_map]
  file := fun category => by rw [h.file, hlowest.findSome?_eq (.file category) fun _ => rfl]
  nameKeys := fun category => by
    rw [h.nameKeys, hlowest.findSome?_eq (.nameKeys category) fun _ => rfl]
  sources := h.sources

theorem failure?_merge_lowest (hlowest : Shadowed sources lowest) :
    failure? (merge (some home) (sources ++ [lowest])) =
      failure? (merge (some home) sources) := by
  rw [failure?_merge, failure?_merge, List.reverse_append, List.reverse_singleton,
    List.singleton_append, List.findSome?_cons, Layer.stray?_eq_none_iff.2 hlowest.strays,
    Option.map_none]

theorem merge_lowest (hlowest : Shadowed sources lowest) {settings : Settings}
    (h : merge (some home) sources = .ok settings) :
    ∃ same, merge (some home) (sources ++ [lowest]) = .ok same ∧ SameEffect same settings ∧
      (sources ≠ [] → same.origin = settings.origin) := by
  have hnone : failure? (merge (some home) (sources ++ [lowest])) = none := by
    rw [failure?_merge_lowest hlowest, h, failure?_ok]
  obtain ⟨same, hsame⟩ := failure?_eq_none_iff.1 hnone
  have hdefined := (firstDefined_of_merge hsame).of_lowest hlowest
  refine ⟨same, hsame, hdefined.sameEffect (firstDefined_of_merge h), fun hne => ?_⟩
  obtain ⟨first, rest, rfl⟩ := List.exists_cons_of_ne_nil hne
  rw [merge_eq] at h hsame
  obtain ⟨_, _, h⟩ := bind_eq_ok_iff.1 h
  obtain ⟨_, _, hsame⟩ := bind_eq_ok_iff.1 hsame
  rw [← Except.ok.inj h, ← Except.ok.inj hsame]
  rfl

end Lowest

end AllFiles

/-- Files in order of precedence make settings unless one of them, overruled or not, has a table for
a category that does not exist; the least such name of the lowest such file is what is said of it
then. Otherwise the first file that defines a key decides it, and one below all others that defines
nothing new changes nothing. -/
theorem merge_first_definition_counts (home : Path) (sources : List Source) :
    (∀ error, merge (some home) sources = .error error ↔ ∃ source name,
      LastStray sources source name ∧ error = .unknownCategory source.path name) ∧
    ((∃ error, merge (some home) sources = .error error) ↔
      ∃ source ∈ sources, ∃ name, source.layer.Strays name) ∧
    (∀ settings, merge (some home) sources = .ok settings →
      FirstDefined home sources settings) ∧
    ∀ lowest, Shadowed sources lowest →
      (∀ error, merge (some home) (sources ++ [lowest]) = .error error ↔
        merge (some home) sources = .error error) ∧
      ∀ settings, merge (some home) sources = .ok settings →
        ∃ same, merge (some home) (sources ++ [lowest]) = .ok same ∧ SameEffect same settings ∧
          (sources ≠ [] → same.origin = settings.origin) := by
  refine ⟨fun _ => merge_eq_error_iff, exists_merge_eq_error_iff,
    fun _ => firstDefined_of_merge, fun lowest hlowest => ⟨fun error => ?_, fun settings h => ?_⟩⟩
  · rw [← failure?_eq_some_iff, ← failure?_eq_some_iff, failure?_merge_lowest hlowest]
  · exact merge_lowest hlowest h

/-- The file of a project, which is nearest. -/
def projectFile : Source where
  path := ⟨"/work/project/.vds.toml"⟩
  layer :=
    { root := none
      schema := none
      fields := some ⟨some "record", none, none⟩
      regions := some ⟨none, .ofList [("marine", ⟨none, some ["name_en"]⟩)]⟩ }

def sharedFile : Source where
  path := ⟨"/work/.vds.toml"⟩
  layer :=
    { root := none
      schema := some (some "v1.0.0")
      fields := some ⟨some "data", none, some "location"⟩
      regions := some
        ⟨some "~/seas", .ofList [("marine", ⟨some "seas.geojson", some ["name"]⟩)]⟩ }

/-- A file that defines nothing but what is defined above it; its table for countries is empty. -/
def homeFile : Source where
  path := ⟨"/home/.vds.toml"⟩
  layer :=
    { root := none
      schema := some none
      fields := some ⟨none, none, some "place"⟩
      regions := some
        ⟨some "old", .ofList [("country", ⟨none, none⟩), ("marine", ⟨some "old.json", none⟩)]⟩ }

def strayFile : Source where
  path := ⟨"/.vds.toml"⟩
  layer :=
    { root := none
      schema := none
      fields := none
      regions := some ⟨none, .ofList [("planet", ⟨none, none⟩), ("moon", ⟨none, none⟩)]⟩ }

/-- What the files of the project and those it shares make together. -/
def projectSettings : Settings where
  defaultVersion := some "v1.0.0"
  fields := ⟨"record", "meta.all", "location"⟩
  directory := ⟨"/home/seas"⟩
  overrides := ⟨none, some ⟨some ⟨"seas.geojson"⟩, some ["name_en"]⟩, none⟩
  origin := some projectFile.directory

/-- The settings of a project under those it shares with others, with and without a file below
both, and a file that spoils them. -/
theorem projectFile_first_definition_counts :
    let home : Path := ⟨"/home"⟩
    let sources := [projectFile, sharedFile]
    (merge (some home) sources = .ok projectSettings ∧
      FirstDefined home sources projectSettings) ∧
    (Shadowed sources homeFile ∧
      ∃ same, merge (some home) (sources ++ [homeFile]) = .ok same ∧
        SameEffect same projectSettings) ∧
    ∃ error, merge (some home) [projectFile, strayFile, sharedFile] = .error error ∧
      ∃ source name, LastStray [projectFile, strayFile, sharedFile] source name ∧
        error = .unknownCategory source.path name := by
  intro home sources
  have hdefined : ∀ key, homeFile.layer.defines key = true →
      sharedFile.layer.defines key = true := by
    intro key
    cases key with
    | file category => cases category <;> decide
    | nameKeys category => cases category <;> decide
    | defaultVersion | base | allText | geo | directory => decide
  have hshadowed : Shadowed sources homeFile :=
    ⟨Layer.stray?_eq_none_iff.1 rfl, fun key hkey =>
      ⟨sharedFile, List.mem_cons_of_mem _ List.mem_cons_self, hdefined key hkey⟩⟩
  have hmerge : merge (some home) sources = .ok projectSettings := by decide +kernel
  obtain ⟨_, _, hfirst, hlowest⟩ := merge_first_definition_counts home sources
  obtain ⟨same, hsame, heffect, _⟩ := (hlowest homeFile hshadowed).2 projectSettings hmerge
  have hstray := (merge_first_definition_counts home [projectFile, strayFile, sharedFile]).1
  exact ⟨⟨hmerge, hfirst projectSettings hmerge⟩, ⟨hshadowed, same, hsame, heffect⟩,
    .unknownCategory strayFile.path "moon", rfl, (hstray _).1 rfl⟩

end Settings

end RecordQuery
