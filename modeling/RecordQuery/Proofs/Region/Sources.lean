import Mathlib.Data.List.Nodup
import RecordQuery.Proofs.Region.Loading

/-!
# Which sources decide what is looked up

Sources are loaded one after the other, and a category takes the set of the latest. Main statement:
sources make a lookup when all of them can be loaded; it has the areas of the last source of each
category and no others, and counts each area once.
-/

namespace RecordQuery.Region

/-! ## What a lookup lists -/

namespace Lookup

variable {lookup : Lookup} {category : Category} {name : String}

theorem mem_names_iff :
    name ∈ lookup.names category ↔ ∃ area, lookup.get? category.name name = some area := by
  have hget : lookup.get? category.name name =
      (lookup.set? category).bind fun set => set.get? name := by
    rw [get?, Category.ofName?_name]
    rfl
  rw [hget, names]
  cases lookup.set? category with
  | none =>
    constructor
    · exact fun h => absurd h List.not_mem_nil
    · rintro ⟨_, ⟨⟩⟩
  | some set => exact SortedMap.mem_keys_iff

theorem pairwise_names (lookup : Lookup) (category : Category) :
    (lookup.names category).Pairwise (· < ·) := by
  rw [names]
  split
  · exact SortedMap.pairwise_keys _
  · exact .nil

/-- The areas of a lookup, each as the name of its category and its own. -/
def listed (lookup : Lookup) : List (String × String) :=
  Category.all.flatMap fun category => (lookup.names category).map (category.name, ·)

theorem mem_listed_iff {category : String} :
    (category, name) ∈ lookup.listed ↔ ∃ area, lookup.get? category name = some area := by
  simp only [listed, List.mem_flatMap, List.mem_map, Prod.mk.injEq, mem_names_iff]
  constructor
  · rintro ⟨found, _, _, harea, rfl, rfl⟩
    exact harea
  · rintro ⟨area, harea⟩
    obtain ⟨found, _, hfound, _, _⟩ := get?_eq_some_iff.1 harea
    obtain rfl := Category.name_of_ofName? hfound
    exact ⟨found, List.mem_of_find?_eq_some hfound, name, ⟨area, harea⟩, rfl, rfl⟩

theorem nodup_listed (lookup : Lookup) : lookup.listed.Nodup := by
  have hnames : ∀ category, (lookup.names category).Nodup := by
    intro category
    refine (lookup.pairwise_names category).imp fun hlt heq => ?_
    rw [heq] at hlt
    exact String.lt_irrefl _ hlt
  rw [listed, List.nodup_flatMap]
  refine ⟨fun category _ => (hnames category).map fun _ _ h => (Prod.mk.inj h).2, ?_⟩
  -- Areas of different categories differ in the name of the category.
  have hapart : Category.all.Pairwise fun category other => category.name ≠ other.name := by decide
  refine hapart.imp fun hne => ?_
  simp only [Function.onFun, List.Disjoint, List.mem_map]
  rintro _ ⟨name, _, rfl⟩ ⟨other, _, heq⟩
  exact hne (congrArg Prod.fst heq).symm

theorem size_eq_length_listed (lookup : Lookup) : lookup.size = lookup.listed.length := by
  simp [size, listed, Category.all, Nat.add_assoc]

theorem isEmpty_eq_true_iff :
    lookup.isEmpty = true ↔ ∀ category name, lookup.get? category name = none := by
  rw [isEmpty, beq_iff_eq, size_eq_length_listed, List.length_eq_zero_iff,
    List.eq_nil_iff_forall_not_mem]
  simp only [Prod.forall, mem_listed_iff, not_exists, Option.eq_none_iff_forall_ne_some, ne_eq]

end Lookup

/-! ## Source after source -/

section Files

variable {files : Files Id}

/-- What comes of loading a source by itself. -/
def Source.outcome (files : Files Id) (source : Source) : Except Error RegionSet :=
  Id.run (RegionSet.load files source.path source.nameKeys)

/-- Of the sources for the category of this name this one is the last. -/
def Source.LastFor (sources : List Source) (category : String) (source : Source) : Prop :=
  ∃ before after, sources = before ++ source :: after ∧ source.category.name = category ∧
    ∀ later ∈ after, later.category.name ≠ category

/-- The last of some sources for a category. -/
def Source.lastFor? (category : Category) (sources : List Source) : Option Source :=
  sources.reverse.find? (·.category == category)

theorem Source.lastFor?_concat (category : Category) (sources : List Source) (source : Source) :
    lastFor? category (sources ++ [source]) =
      if source.category = category then some source else lastFor? category sources := by
  rw [lastFor?, List.reverse_append, List.reverse_singleton, List.singleton_append, List.find?_cons]
  by_cases h : source.category = category
  · rw [if_pos h, h, beq_self_eq_true]
  · rw [if_neg h, beq_eq_false_iff_ne.2 h, lastFor?]

theorem Source.lastFor?_eq_some_iff {category : Category} {sources : List Source}
    {source : Source} :
    lastFor? category sources = some source ↔ LastFor sources category.name source := by
  rw [lastFor?, find?_reverse_eq_some_iff, LastFor]
  simp only [beq_iff_eq, beq_eq_false_iff_ne, ne_eq, Category.name_inj]

namespace Lookup

variable {lookup loaded : Lookup} {sources before : List Source} {error : Error}

/-- The lookup has the set of the last source of each category, and no set where there is none. -/
def Holds (files : Files Id) (lookup : Lookup) (sources : List Source) : Prop :=
  ∀ category, lookup.set? category =
    (Source.lastFor? category sources).bind fun source => (source.outcome files).toOption

theorem holds_empty : empty.Holds files [] := by
  intro category
  cases category <;> rfl

-- The set of one more source stands in for the one of its category.
theorem Holds.insert (h : lookup.Holds files before) {source : Source} {set : RegionSet}
    (hset : source.outcome files = .ok set) :
    (lookup.insert source.category set).Holds files (before ++ [source]) := by
  intro category
  rw [set?_insert, Source.lastFor?_concat, h category]
  by_cases hcategory : source.category = category
  · rw [if_pos hcategory, if_pos hcategory, Option.bind_some, hset]
    rfl
  · rw [if_neg hcategory, if_neg hcategory]

theorem Holds.loadOnto (h : lookup.Holds files before)
    (hload : Id.run (loadOnto files lookup sources) = .ok loaded) :
    loaded.Holds files (before ++ sources) := by
  induction sources generalizing lookup before with
  | nil =>
    obtain rfl := Except.ok.inj hload
    rwa [List.append_nil]
  | cons source rest ih =>
    rw [loadOnto_cons] at hload
    split at hload
    · exact nomatch hload
    · rename_i set hset
      have hrest := ih (h.insert hset) hload
      rwa [List.append_assoc, List.singleton_append] at hrest

theorem Holds.get?_eq_some_iff (h : lookup.Holds files sources) {category name : String}
    {area : Area} :
    lookup.get? category name = some area ↔ ∃ (source : Source) (set : RegionSet),
      source.LastFor sources category ∧ source.outcome files = .ok set ∧
        set.get? name = some area := by
  rw [Lookup.get?_eq_some_iff]
  constructor
  · rintro ⟨found, set, hfound, hset, harea⟩
    obtain rfl := Category.name_of_ofName? hfound
    rw [h found] at hset
    obtain ⟨source, hsource, houtcome⟩ := Option.bind_eq_some_iff.1 hset
    exact ⟨source, set, Source.lastFor?_eq_some_iff.1 hsource, toOption_eq_some_iff.1 houtcome,
      harea⟩
  · rintro ⟨source, set, hsource, hset, harea⟩
    obtain ⟨_, _, _, rfl, _⟩ := id hsource
    refine ⟨source.category, set, Category.ofName?_name _, ?_, harea⟩
    rw [h, Source.lastFor?_eq_some_iff.2 hsource, Option.bind_some, hset]
    rfl

-- Loading ends at the first source that fails, whatever has been loaded.
theorem run_loadOnto_eq_error_iff (index : Nat) :
    Id.run (loadOnto files lookup sources) = .error error ↔
      ComesTo (fun source => ∃ set, source.outcome files = .ok set)
        (fun _ source => source.outcome files = .error error) index sources := by
  induction sources generalizing lookup index with
  | nil => exact ⟨fun h => (nomatch h), fun h => absurd h not_comesTo_nil⟩
  | cons source rest ih =>
    rw [comesTo_cons_iff, loadOnto_cons, Source.outcome]
    cases hset : Id.run (RegionSet.load files source.path source.nameKeys) with
    | error cause => simp
    | ok set => simpa using ih (index + 1)

theorem exists_run_loadOnto_eq_ok_iff :
    (∃ loaded, Id.run (loadOnto files lookup sources) = .ok loaded) ↔
      ∀ source ∈ sources, ∃ set, source.outcome files = .ok set := by
  induction sources generalizing lookup with
  | nil => exact ⟨fun _ _ h => absurd h List.not_mem_nil, fun _ => ⟨lookup, rfl⟩⟩
  | cons source rest ih =>
    rw [List.forall_mem_cons, loadOnto_cons, Source.outcome]
    cases Id.run (RegionSet.load files source.path source.nameKeys) with
    | error cause => simp
    | ok set => simpa using ih

/-- Sources make a lookup just when each of them can be loaded; else the first that cannot is what
is complained of. A lookup that they make has the areas of the last source of each category, and no
area of a source that another has stood in for. Its size is the number of areas that can be looked
up, by the name of the category and the name of the area. -/
theorem load_last_counts (files : Files Id) (sources : List Source) :
    ((∃ lookup, Id.run (load files sources) = .ok lookup) ↔
      ∀ source ∈ sources, ∃ set, source.outcome files = .ok set) ∧
    (∀ error, Id.run (load files sources) = .error error ↔
      ∃ before source after, sources = before ++ source :: after ∧
        (∀ earlier ∈ before, ∃ set, earlier.outcome files = .ok set) ∧
        source.outcome files = .error error) ∧
    ∀ lookup, Id.run (load files sources) = .ok lookup →
      (∀ category name area, lookup.get? category name = some area ↔
        ∃ (source : Source) (set : RegionSet), source.LastFor sources category ∧
          source.outcome files = .ok set ∧ set.get? name = some area) ∧
      (∃ found : List (String × String), found.Nodup ∧
        (∀ category name, (category, name) ∈ found ↔
          ∃ area, lookup.get? category name = some area) ∧
        lookup.size = found.length) ∧
      (lookup.isEmpty = true ↔ ∀ category name, lookup.get? category name = none) := by
  refine ⟨exists_run_loadOnto_eq_ok_iff, fun _ => run_loadOnto_eq_error_iff 0,
    fun lookup hload => ?_⟩
  have hholds : lookup.Holds files sources := holds_empty.loadOnto hload
  exact ⟨fun _ _ _ => hholds.get?_eq_some_iff,
    ⟨lookup.listed, lookup.nodup_listed, fun _ _ => mem_listed_iff, lookup.size_eq_length_listed⟩,
    isEmpty_eq_true_iff⟩

/-- A boundary file, as arrays of what counts, with a feature of each of these names and without
any polygon. -/
def boundaryFile (names : List String) : List UInt8 :=
  let feature (name : String) : String :=
    "[[\"MultiPolygon\",[]],\x7b\"name\":\"" ++ name ++ "\"\x7d]"
  ("[[" ++ ",".intercalate (names.map feature) ++ "]]").toUTF8.toList

/-- The files of an atlas whose seas have been drawn twice. -/
def atlasFiles : Files Id :=
  ⟨fun _ => true, fun path => .ok <|
    if path = ⟨"old"⟩ then boundaryFile ["aral", "azov"]
    else if path = ⟨"new"⟩ then boundaryFile ["ross", "azov"]
    else boundaryFile ["aral"]⟩

def atlasSources : List Source :=
  [⟨.marine, ⟨"old"⟩, ["name"]⟩, ⟨.country, ⟨"land"⟩, ["name"]⟩, ⟨.marine, ⟨"new"⟩, ["name"]⟩]

/-- Of the seas those that were drawn last are found, and what only the first drawing has is found
no more but as a country. -/
theorem atlasSources_last_counts :
    (match Id.run (load atlasFiles atlasSources) with
      | .ok lookup => decide (lookup.names .marine = ["Azov", "Ross"] ∧
          lookup.get? "marine" "Aral" = none ∧
          lookup.get? "country" "Aral" = some Area.empty ∧ lookup.size = 3)
      | .error _ => false) = true ∧
    ∃ lookup, Id.run (load atlasFiles atlasSources) = .ok lookup ∧
      (∀ category name area, lookup.get? category name = some area ↔
        ∃ (source : Source) (set : RegionSet), source.LastFor atlasSources category ∧
          source.outcome atlasFiles = .ok set ∧ set.get? name = some area) ∧
      (∃ found : List (String × String), found.Nodup ∧
        (∀ category name, (category, name) ∈ found ↔
          ∃ area, lookup.get? category name = some area) ∧
        lookup.size = found.length) ∧
      (lookup.isEmpty = true ↔ ∀ category name, lookup.get? category name = none) := by
  have hload : (match Id.run (load atlasFiles atlasSources) with
      | .ok lookup => decide (lookup.names .marine = ["Azov", "Ross"] ∧
          lookup.get? "marine" "Aral" = none ∧
          lookup.get? "country" "Aral" = some Area.empty ∧ lookup.size = 3)
      | .error _ => false) = true := by
    decide +kernel
  refine ⟨hload, ?_⟩
  split at hload
  · rename_i lookup hlookup
    exact ⟨lookup, hlookup, (load_last_counts atlasFiles atlasSources).2.2 lookup hlookup⟩
  · exact nomatch hload

end Lookup

end Files

end RecordQuery.Region
