import RecordQuery.Proofs.Geometry.Coordinates
import RecordQuery.Proofs.Geometry.Equality
import RecordQuery.Proofs.Region.Loading

/-!
# How features make areas

Each feature has a name and polygons of its own, or is at fault. Main statement: the areas of a set
are the polygons of all features of a name one after the other, without those that equal an earlier
one, and the first feature at fault is what is complained of.
-/

namespace RecordQuery

/-- Of some polygons those that equal no earlier one; the polygons in `earlier` come before all of
them. -/
def Polygon.novel (earlier : List Polygon) : List Polygon → List Polygon
  | [] => []
  | polygon :: rest =>
    (if polygon.numbers ∈ earlier.map numbers then [] else [polygon]) ++
      novel (earlier ++ [polygon]) rest

namespace Polygon

-- Only the numbers of the earlier polygons count.
theorem novel_congr {earlier others : List Polygon}
    (h : ∀ numbers, numbers ∈ earlier.map Polygon.numbers ↔ numbers ∈ others.map Polygon.numbers)
    (polygons : List Polygon) : novel earlier polygons = novel others polygons := by
  induction polygons generalizing earlier others with
  | nil => rfl
  | cons polygon rest ih =>
    have hnext : ∀ numbers, numbers ∈ (earlier ++ [polygon]).map Polygon.numbers ↔
        numbers ∈ (others ++ [polygon]).map Polygon.numbers := by
      intro numbers
      rw [List.map_append, List.map_append, List.mem_append, List.mem_append, h]
    simp only [novel, h, ih hnext]

theorem numbers_not_mem_of_mem_novel {earlier polygons : List Polygon} {polygon : Polygon}
    (h : polygon ∈ novel earlier polygons) : polygon.numbers ∉ earlier.map numbers := by
  induction polygons generalizing earlier with
  | nil => exact absurd h List.not_mem_nil
  | cons first rest ih =>
    rw [novel, List.mem_append] at h
    rcases h with h | h
    · by_cases hfirst : first.numbers ∈ earlier.map numbers
      · rw [if_pos hfirst] at h
        exact absurd h List.not_mem_nil
      · rw [if_neg hfirst, List.mem_singleton] at h
        exact h ▸ hfirst
    · have hnot := ih h
      rw [List.map_append, List.mem_append, not_or] at hnot
      exact hnot.1

theorem pairwise_novel (earlier polygons : List Polygon) :
    (novel earlier polygons).Pairwise fun p q => p.numbers ≠ q.numbers := by
  induction polygons generalizing earlier with
  | nil => exact .nil
  | cons first rest ih =>
    rw [novel]
    split
    · exact ih _
    · refine List.pairwise_cons.2 ⟨fun polygon hpolygon heq => ?_, ih _⟩
      apply numbers_not_mem_of_mem_novel hpolygon
      rw [← heq, List.map_append, List.map_singleton]
      exact List.mem_append_right _ List.mem_cons_self

end Polygon

namespace Area

theorem polygons_add (area : Area) (polygon : Polygon) :
    (area.add polygon).polygons = area.polygons ++
      if polygon.numbers ∈ area.polygons.map Polygon.numbers then [] else [polygon] := by
  rw [add]
  by_cases h : polygon.numbers ∈ area.polygons.map Polygon.numbers
  · rw [if_pos ((area.contains_eq_true_iff polygon).2 h), if_pos h, List.append_nil]
  · rw [if_neg (mt (area.contains_eq_true_iff polygon).1 h), if_neg h]

-- Whether a polygon is put in or not, an equal one is there afterwards.
theorem polygons_foldl_add (area : Area) (polygons : List Polygon) :
    (polygons.foldl add area).polygons =
      area.polygons ++ Polygon.novel area.polygons polygons := by
  induction polygons generalizing area with
  | nil => exact (List.append_nil _).symm
  | cons polygon rest ih =>
    have hseen : ∀ numbers, numbers ∈ (area.add polygon).polygons.map Polygon.numbers ↔
        numbers ∈ (area.polygons ++ [polygon]).map Polygon.numbers := by
      intro numbers
      rw [polygons_add]
      split
      · rename_i hmem
        rw [List.append_nil, List.map_append, List.mem_append, List.map_singleton,
          List.mem_singleton]
        exact ⟨.inl, fun h => h.elim id fun heq => heq ▸ hmem⟩
      · exact Iff.rfl
    rw [List.foldl_cons, ih, Polygon.novel_congr hseen, polygons_add, List.append_assoc,
      Polygon.novel]

theorem foldl_add_empty (polygons : List Polygon) :
    polygons.foldl add empty = ⟨Polygon.novel [] polygons⟩ := by
  have h := polygons_foldl_add empty polygons
  exact Area.mk.injEq _ _ ▸ h

end Area

namespace Region

open Json (Value)

/-! ## One feature -/

/-- The properties have a text with a word in it under this key. -/
def HasText (properties : List (String × Value)) (key text : String) : Prop :=
  Entries.find? key properties = some (.string text) ∧ ∃ c ∈ text.toList, Text.isBlank c = false

/-- The text is what the first of the keys says under which the feature has one. -/
def Feature.Given (nameKeys : List String) (feature : Feature) (text : String) : Prop :=
  ∃ properties before key after, feature.properties = some properties ∧
    nameKeys = before ++ key :: after ∧ HasText properties key text ∧
    ∀ other ∈ before, ∀ another, ¬ HasText properties other another

/-- The feature is listed under this name. -/
def Feature.Named (nameKeys : List String) (feature : Feature) (name : String) : Prop :=
  ∃ text, feature.Given nameKeys text ∧ name = Text.titleCase text

/-- There is an outer ring, and every position has longitude and latitude. -/
def Bounding (rings : List (List (List Decimal.Binary))) : Prop :=
  rings ≠ [] ∧ ∀ ring ∈ rings, ∀ position ∈ ring, 2 ≤ position.length

def Shape.Valid : Shape → Prop
  | .polygon rings => Bounding rings
  | .multiPolygon polygons => ∀ rings ∈ polygons, Bounding rings

theorem hasText_iff {properties : List (String × Value)} {key text : String} :
    HasText properties key text ↔
      (Entries.find? key properties).bind Value.asString? = some text ∧
        (!text.toList.all Text.isBlank) = true := by
  have hfound : Entries.find? key properties = some (.string text) ↔
      (Entries.find? key properties).bind Value.asString? = some text := by
    cases Entries.find? key properties with
    | none => simp
    | some value => cases value <;> simp [Value.asString?]
  rw [HasText, hfound, Bool.not_eq_true', List.all_eq_false]
  simp only [Bool.not_eq_true]

section Keys

variable {properties : List (String × Value)} {key text : String} {keys : List String}

theorem rawName?_cons_of_hasText (h : HasText properties key text) :
    rawName? (key :: keys) properties = some text := by
  obtain ⟨hfound, hword⟩ := hasText_iff.1 h
  rw [rawName?]
  simp only [List.filterMap_cons, hfound, List.find?_cons, hword]

theorem rawName?_cons_of_not_hasText (h : ∀ text, ¬ HasText properties key text) :
    rawName? (key :: keys) properties = rawName? keys properties := by
  rw [rawName?, rawName?]
  simp only [List.filterMap_cons]
  cases hfound : (Entries.find? key properties).bind Value.asString? with
  | none => rfl
  | some other =>
    have hword := mt (fun hword => hasText_iff.2 ⟨hfound, hword⟩) (h other)
    simp only [List.find?_cons, Bool.not_eq_true _ ▸ hword]

-- Key after key, the first that has a text decides.
theorem rawName?_eq_some_iff :
    rawName? keys properties = some text ↔
      ComesTo (fun other => ∀ another, ¬ HasText properties other another)
        (fun _ key => HasText properties key text) 0 keys := by
  -- The places of the keys do not matter.
  generalize 0 = index
  induction keys generalizing index with
  | nil => exact ⟨fun h => (nomatch h), fun h => absurd h not_comesTo_nil⟩
  | cons first rest ih =>
    rw [comesTo_cons_iff]
    by_cases hfirst : ∃ another, HasText properties first another
    · obtain ⟨another, hanother⟩ := hfirst
      have hpassed : ¬ ∀ other, ¬ HasText properties first other := fun h => h another hanother
      rw [rawName?_cons_of_hasText hanother, Option.some.injEq, or_iff_left fun h => hpassed h.1]
      constructor
      · rintro rfl
        exact hanother
      · intro htext
        exact Value.string.inj (Option.some.inj (hanother.1.symm.trans htext.1))
    · have hnone := not_exists.1 hfirst
      rw [rawName?_cons_of_not_hasText hnone, ih, or_iff_right (hnone text)]
      exact ⟨fun h => ⟨hnone, h⟩, And.right⟩

end Keys

theorem Feature.given_iff {nameKeys : List String} {feature : Feature} {text : String} :
    feature.Given nameKeys text ↔ feature.properties.bind (rawName? nameKeys) = some text := by
  simp only [Option.bind_eq_some_iff, rawName?_eq_some_iff]
  constructor
  · rintro ⟨properties, before, key, after, hproperties, rfl, hkey, hbefore⟩
    exact ⟨properties, hproperties, before, key, after, rfl, hbefore, hkey⟩
  · rintro ⟨properties, hproperties, before, key, after, rfl, hbefore, hkey⟩
    exact ⟨properties, before, key, after, hproperties, rfl, hkey, hbefore⟩

theorem Feature.displayName?_eq_some_iff {nameKeys : List String} {feature : Feature}
    {name : String} : feature.displayName? nameKeys = some name ↔ feature.Named nameKeys name := by
  simp only [displayName?, Option.map_eq_some_iff, ← given_iff, Named, @eq_comm _ name]

theorem Feature.Named.unique {nameKeys : List String} {feature : Feature} {name another : String}
    (h : feature.Named nameKeys name) (hanother : feature.Named nameKeys another) :
    name = another := by
  rw [← displayName?_eq_some_iff] at h hanother
  exact Option.some.inj (h.symm.trans hanother)

theorem Feature.displayName?_eq_none_iff {nameKeys : List String} {feature : Feature} :
    feature.displayName? nameKeys = none ↔ ¬ ∃ name, feature.Named nameKeys name := by
  rw [Option.eq_none_iff_forall_ne_some, not_exists]
  simp only [ne_eq, displayName?_eq_some_iff]

/-- What a feature brings: a name and polygons. -/
structure Part where
  name : String
  polygons : List Polygon

def Feature.Brings (nameKeys : List String) (feature : Feature) (part : Part) : Prop :=
  feature.Named nameKeys part.name ∧ feature.shape.polygons = .ok part.polygons

/-- What the feature that stands at `index` is at fault for: its name before its shape. -/
inductive Feature.Fault (origin : String) (nameKeys : List String) (index : Nat)
    (feature : Feature) : Error → Prop
  | unnamed : (¬ ∃ name, feature.Named nameKeys name) →
      Fault origin nameKeys index feature (.unnamed origin index nameKeys)
  | invalidGeometry {name : String} {cause : GeometryError} : feature.Named nameKeys name →
      feature.shape.polygons = .error cause →
      Fault origin nameKeys index feature (.invalidGeometry origin index cause)

theorem exists_ofRings_eq_ok_iff {rings : List (List (List Decimal.Binary))} :
    (∃ polygon, Polygon.ofRings rings = .ok polygon) ↔ Bounding rings := by
  cases rings with
  | nil => exact ⟨fun ⟨_, h⟩ => (nomatch h), fun h => absurd rfl h.1⟩
  | cons outer holes =>
    rw [Bounding, List.forall_mem_cons]
    constructor
    · rintro ⟨polygon, h⟩
      obtain ⟨drawn, houter, h⟩ := bind_eq_ok_iff.1 h
      obtain ⟨drawnHoles, hholes, _⟩ := bind_eq_ok_iff.1 h
      have hall := exists_mapM_eq_ok_iff.1 ⟨drawnHoles, hholes⟩
      simp only [Ring.exists_ofPositions_eq_ok_iff] at hall
      have hfirst := Ring.exists_ofPositions_eq_ok_iff.1 ⟨drawn, houter⟩
      exact ⟨List.cons_ne_nil outer holes, hfirst, hall⟩
    · rintro ⟨_, houter, hall⟩
      simp only [← Ring.exists_ofPositions_eq_ok_iff] at houter hall
      obtain ⟨drawn, houter⟩ := houter
      obtain ⟨drawnHoles, hholes⟩ := exists_mapM_eq_ok_iff.2 hall
      exact ⟨_, bind_eq_ok_iff.2 ⟨drawn, houter, bind_eq_ok_iff.2 ⟨drawnHoles, hholes, rfl⟩⟩⟩

theorem Shape.exists_polygons_eq_ok_iff {shape : Shape} :
    (∃ polygons, shape.polygons = .ok polygons) ↔ shape.Valid := by
  cases shape with
  | polygon rings =>
    rw [Valid, ← exists_ofRings_eq_ok_iff]
    constructor
    · rintro ⟨polygons, h⟩
      obtain ⟨polygon, hpolygon, _⟩ := bind_eq_ok_iff.1 h
      exact ⟨polygon, hpolygon⟩
    · rintro ⟨polygon, hpolygon⟩
      exact ⟨[polygon], bind_eq_ok_iff.2 ⟨polygon, hpolygon, rfl⟩⟩
  | multiPolygon polygons =>
    rw [Shape.polygons, exists_mapM_eq_ok_iff, Valid]
    simp only [exists_ofRings_eq_ok_iff]

/-! ## Feature by feature -/

namespace RegionSet

/-- The polygons of all parts of this name, one after the other. -/
def polygonsOf (name : String) (parts : List Part) : List Polygon :=
  (parts.filter fun part => part.name = name).flatMap Part.polygons

/-- The set has an area for the name of each part, with the polygons of all parts of that name less
those that equal an earlier one. -/
def Gathers (set : RegionSet) (parts : List Part) : Prop :=
  ∀ name, set.get? name =
    if name ∈ parts.map Part.name then some ⟨Polygon.novel [] (polygonsOf name parts)⟩ else none

theorem gathers_empty : empty.Gathers [] := fun _ => rfl

theorem polygonsOf_of_not_mem {name : String} {parts : List Part}
    (h : name ∉ parts.map Part.name) : polygonsOf name parts = [] := by
  have hfilter : parts.filter (fun part => part.name = name) = [] := by
    refine List.filter_eq_nil_iff.2 fun part hpart hname => ?_
    exact h (List.mem_map.2 ⟨part, hpart, of_decide_eq_true hname⟩)
  rw [polygonsOf, hfilter, List.flatMap_nil]

theorem polygonsOf_concat (name : String) (parts : List Part) (part : Part) :
    polygonsOf name (parts ++ [part]) =
      polygonsOf name parts ++ if part.name = name then part.polygons else [] := by
  rw [polygonsOf, List.filter_append, List.flatMap_append, ← polygonsOf]
  by_cases h : part.name = name <;> simp [h]

-- One more part makes its polygons the last of its name.
theorem Gathers.add {set : RegionSet} {parts : List Part} (h : set.Gathers parts) (part : Part) :
    (set.add part.name part.polygons).Gathers (parts ++ [part]) := by
  intro name
  have hnames : name ∈ (parts ++ [part]).map Part.name ↔
      name ∈ parts.map Part.name ∨ part.name = name := by
    rw [List.map_append, List.mem_append, List.map_singleton, List.mem_singleton,
      eq_comm (a := name)]
  rw [get?_add, polygonsOf_concat]
  by_cases hname : part.name = name
  · subst hname
    have hbefore : (set.get? part.name).getD Area.empty =
        (polygonsOf part.name parts).foldl Area.add Area.empty := by
      rw [h part.name, Area.foldl_add_empty]
      by_cases hmem : part.name ∈ parts.map Part.name
      · rw [if_pos hmem, Option.getD_some]
      · rw [if_neg hmem, polygonsOf_of_not_mem hmem]
        rfl
    rw [if_pos rfl, if_pos rfl, if_pos (hnames.2 (.inr rfl)), hbefore, ← List.foldl_append,
      Area.foldl_add_empty]
  · rw [if_neg hname, if_neg hname, List.append_nil, h name]
    by_cases hmem : name ∈ parts.map Part.name
    · rw [if_pos hmem, if_pos (hnames.2 (.inl hmem))]
    · rw [if_neg hmem, if_neg (mt hnames.1 (not_or.2 ⟨hmem, hname⟩))]

/-- The set with these parts, put in one after the other. -/
def addParts (set : RegionSet) (parts : List Part) : RegionSet :=
  parts.foldl (fun set part => set.add part.name part.polygons) set

theorem Gathers.addParts {set : RegionSet} {before : List Part} (h : set.Gathers before)
    (parts : List Part) : (set.addParts parts).Gathers (before ++ parts) := by
  induction parts generalizing set before with
  | nil =>
    rw [List.append_nil]
    exact h
  | cons part parts ih =>
    rw [List.append_cons]
    exact ih (h.add part)

section Reading

variable {origin : String} {nameKeys : List String} {set read : RegionSet} {index : Nat}

theorem addFeature_eq_ok_iff {feature : Feature} {next : RegionSet} :
    addFeature origin nameKeys set index feature = .ok next ↔
      ∃ part, feature.Brings nameKeys part ∧ next = set.add part.name part.polygons := by
  simp only [addFeature_eq_ok_iff_exists, Feature.Brings, ← Feature.displayName?_eq_some_iff]
  constructor
  · rintro ⟨name, polygons, hname, hpolygons, rfl⟩
    exact ⟨⟨name, polygons⟩, ⟨hname, hpolygons⟩, rfl⟩
  · rintro ⟨part, ⟨hname, hpolygons⟩, rfl⟩
    exact ⟨part.name, part.polygons, hname, hpolygons, rfl⟩

theorem addFeature_eq_error_iff {feature : Feature} {error : Error} :
    addFeature origin nameKeys set index feature = .error error ↔
      feature.Fault origin nameKeys index error := by
  rw [addFeature]
  constructor
  · intro h
    split at h
    · rename_i hname
      obtain rfl := Except.error.inj h
      exact .unnamed (Feature.displayName?_eq_none_iff.1 hname)
    · rename_i name hname
      split at h
      · rename_i cause hcause
        obtain rfl := Except.error.inj h
        exact .invalidGeometry (Feature.displayName?_eq_some_iff.1 hname) hcause
      · exact nomatch h
  · intro h
    cases h with
    | unnamed hname => rw [Feature.displayName?_eq_none_iff.2 hname]
    | invalidGeometry hname hcause =>
      rw [Feature.displayName?_eq_some_iff.2 hname]
      simp only [hcause]

-- Features make a set when each of them brings a part; the parts go in one after the other.
theorem addFeatures_eq_ok_iff {features : List Feature} :
    addFeatures origin nameKeys set index features = .ok read ↔
      ∃ parts, List.Forall₂ (Feature.Brings nameKeys) features parts ∧
        read = set.addParts parts := by
  induction features generalizing set index with
  | nil =>
    rw [addFeatures]
    constructor
    · intro h
      exact ⟨[], .nil, (Except.ok.inj h).symm⟩
    · rintro ⟨parts, hparts, rfl⟩
      rw [List.forall₂_nil_left_iff.1 hparts]
      rfl
  | cons feature rest ih =>
    rw [addFeatures]
    constructor
    · intro h
      split at h
      · cases h
      · rename_i next hfeature
        obtain ⟨part, hpart, rfl⟩ := addFeature_eq_ok_iff.1 hfeature
        obtain ⟨parts, hparts, rfl⟩ := ih.1 h
        exact ⟨part :: parts, .cons hpart hparts, rfl⟩
    · rintro ⟨parts, hparts, rfl⟩
      obtain ⟨part, parts, hpart, hrest, rfl⟩ := List.forall₂_cons_left_iff.1 hparts
      rw [addFeature_eq_ok_iff.2 ⟨part, hpart, rfl⟩]
      exact ih.2 ⟨parts, hrest, rfl⟩

-- The first feature at fault is complained of; those before it bring what they bring.
theorem addFeatures_eq_error_iff {features : List Feature} {error : Error} :
    addFeatures origin nameKeys set index features = .error error ↔
      ComesTo (fun feature => ∃ part, feature.Brings nameKeys part)
        (fun place feature => feature.Fault origin nameKeys place error) index features := by
  induction features generalizing set index with
  | nil => simp only [addFeatures, not_comesTo_nil, reduceCtorEq]
  | cons first rest ih =>
    rw [comesTo_cons_iff, ← @addFeature_eq_error_iff _ _ set, addFeatures]
    cases hfirst : addFeature origin nameKeys set index first with
    | error cause =>
      have hfault : ¬ ∃ part, first.Brings nameKeys part := by
        rintro ⟨part, hpart⟩
        cases hfirst.symm.trans (addFeature_eq_ok_iff.2 ⟨part, hpart, rfl⟩)
      simp only [Except.error.injEq, hfault, false_and, or_false]
    | ok next =>
      obtain ⟨part, hpart, _⟩ := addFeature_eq_ok_iff.1 hfirst
      have hbrings : ∃ part, first.Brings nameKeys part := ⟨part, hpart⟩
      simp only [hbrings, true_and, reduceCtorEq, false_or]
      exact ih

end Reading

section Features

variable {origin : String} {nameKeys : List String} {features : List Feature}

theorem gathers_of_ofFeatures {set : RegionSet}
    (h : ofFeatures origin nameKeys features = .ok set) :
    ∃ parts, List.Forall₂ (Feature.Brings nameKeys) features parts ∧ set.Gathers parts := by
  obtain ⟨parts, hparts, rfl⟩ := addFeatures_eq_ok_iff.1 h
  exact ⟨parts, hparts, gathers_empty.addParts parts⟩

-- A feature that brings something is not at fault.
theorem exists_ofFeatures_eq_ok_iff :
    (∃ set, ofFeatures origin nameKeys features = .ok set) ↔
      ∀ feature ∈ features, ∃ part, feature.Brings nameKeys part := by
  constructor
  · rintro ⟨set, h⟩ feature hfeature
    obtain ⟨parts, hparts, _⟩ := gathers_of_ofFeatures h
    obtain ⟨part, _, hpart⟩ := exists_of_forall₂_of_mem hparts.flip hfeature
    exact ⟨part, hpart⟩
  · intro h
    cases hread : ofFeatures origin nameKeys features with
    | ok set => exact ⟨set, rfl⟩
    | error error =>
      obtain ⟨before, feature, after, rfl, _, hfault⟩ := addFeatures_eq_error_iff.1 hread
      obtain ⟨part, hpart⟩ :=
        h feature (List.mem_append_right before List.mem_cons_self)
      have herror := (@addFeature_eq_error_iff _ _ empty (0 + before.length) _ _).2 hfault
      exact nomatch herror.symm.trans (addFeature_eq_ok_iff.2 ⟨part, hpart, rfl⟩)

theorem exists_brings_iff {feature : Feature} :
    (∃ part, feature.Brings nameKeys part) ↔
      (∃ name, feature.Named nameKeys name) ∧ feature.shape.Valid := by
  rw [← Shape.exists_polygons_eq_ok_iff]
  constructor
  · rintro ⟨part, hname, hpolygons⟩
    exact ⟨⟨part.name, hname⟩, part.polygons, hpolygons⟩
  · rintro ⟨⟨name, hname⟩, polygons, hpolygons⟩
    exact ⟨⟨name, polygons⟩, hname, hpolygons⟩

theorem mem_map_name_iff_of_brings {parts : List Part}
    (h : List.Forall₂ (Feature.Brings nameKeys) features parts) {name : String} :
    name ∈ parts.map Part.name ↔ ∃ feature ∈ features, feature.Named nameKeys name := by
  rw [List.mem_map]
  constructor
  · rintro ⟨part, hpart, rfl⟩
    obtain ⟨feature, hfeature, hbrings⟩ := exists_of_forall₂_of_mem h hpart
    exact ⟨feature, hfeature, hbrings.1⟩
  · rintro ⟨feature, hfeature, hname⟩
    obtain ⟨part, hpart, hbrings⟩ := exists_of_forall₂_of_mem h.flip hfeature
    exact ⟨part, hpart, hbrings.1.unique hname⟩

theorem Gathers.mem_names_iff {set : RegionSet} {parts : List Part} (h : set.Gathers parts)
    {name : String} : name ∈ set.names ↔ name ∈ parts.map Part.name := by
  rw [names, SortedMap.mem_keys_iff]
  have hname := h name
  rw [get?] at hname
  by_cases hmem : name ∈ parts.map Part.name
  · rw [hname, if_pos hmem]
    exact ⟨fun _ => hmem, fun _ => ⟨_, rfl⟩⟩
  · rw [hname, if_neg hmem]
    exact ⟨fun ⟨_, h⟩ => (nomatch h), fun h => absurd h hmem⟩

end Features

/-- Features make a set when each of them has a name and a valid shape. The set has their names,
and the area of a name has the polygons of all features of that name, one after the other, less
those that equal an earlier one. Else the first feature at fault is complained of. -/
theorem ofFeatures_gathers (origin : String) (nameKeys : List String) (features : List Feature) :
    ((∃ set, ofFeatures origin nameKeys features = .ok set) ↔
      ∀ feature ∈ features, (∃ name, feature.Named nameKeys name) ∧ feature.shape.Valid) ∧
    (∀ set, ofFeatures origin nameKeys features = .ok set →
      (∀ name, name ∈ set.names ↔ ∃ feature ∈ features, feature.Named nameKeys name) ∧
      (∃ parts, List.Forall₂ (Feature.Brings nameKeys) features parts ∧ set.Gathers parts) ∧
      ∀ name area, set.get? name = some area →
        area.polygons.Pairwise fun p q => p.numbers ≠ q.numbers) ∧
    ∀ error, ofFeatures origin nameKeys features = .error error ↔
      ∃ before feature after, features = before ++ feature :: after ∧
        (∀ earlier ∈ before, (∃ name, earlier.Named nameKeys name) ∧ earlier.shape.Valid) ∧
        feature.Fault origin nameKeys before.length error := by
  refine ⟨?_, fun set hset => ?_, fun error => ?_⟩
  · rw [exists_ofFeatures_eq_ok_iff]
    simp only [exists_brings_iff]
  · obtain ⟨parts, hparts, hgathers⟩ := gathers_of_ofFeatures hset
    refine ⟨fun name => hgathers.mem_names_iff.trans (mem_map_name_iff_of_brings hparts),
      ⟨parts, hparts, hgathers⟩, fun name area harea => ?_⟩
    rw [hgathers name] at harea
    split at harea
    · obtain rfl := Option.some.inj harea
      exact Polygon.pairwise_novel [] (polygonsOf name parts)
    · exact nomatch harea
  · refine addFeatures_eq_error_iff.trans ?_
    simp only [ComesTo, exists_brings_iff, Nat.zero_add]

/-- Islands of three points each. The first two differ in the sign of a zero only. -/
def islands : List (List (List Decimal.Binary)) :=
  let two := (Json.Number.integer 2 (by decide)).toBinary
  let ring (zero : Decimal.Binary) : List (List Decimal.Binary) :=
    [[zero, zero], [two, zero], [zero, two]]
  [ring (.zero false), ring (.zero true), [[two, two], [two, .zero false], [.zero false, two]]]

/-- Two features of one sea with a lagoon between them. -/
def seaFeatures : List Feature :=
  let island (i : Nat) := [islands.getD i []]
  [⟨.polygon (island 0), some [("alias", .string " "), ("name", .string "north  SEA")]⟩,
    ⟨.multiPolygon [island 2, island 0], some [("alias", .string "lagoon"), ("name", .null)]⟩,
    ⟨.multiPolygon [island 1, island 2, island 2], some [("alias", .string "North Sea")]⟩]

/-- The sea has two of its four polygons, and the lagoon keeps its own. -/
theorem seaFeatures_gathered :
    (match ofFeatures "seas" ["alias", "name"] seaFeatures with
      | .ok set => decide (set.names = ["Lagoon", "North Sea"] ∧
          (set.get? "North Sea").map Area.size = some 2 ∧
          (set.get? "Lagoon").map Area.size = some 2)
      | .error _ => false) = true ∧
    ∃ set, ofFeatures "seas" ["alias", "name"] seaFeatures = .ok set ∧
      (∀ name, name ∈ set.names ↔
        ∃ feature ∈ seaFeatures, feature.Named ["alias", "name"] name) ∧
      (∃ parts, List.Forall₂ (Feature.Brings ["alias", "name"]) seaFeatures parts ∧
        set.Gathers parts) ∧
      ∀ name area, set.get? name = some area →
        area.polygons.Pairwise fun p q => p.numbers ≠ q.numbers := by
  have hread : (match ofFeatures "seas" ["alias", "name"] seaFeatures with
      | .ok set => decide (set.names = ["Lagoon", "North Sea"] ∧
          (set.get? "North Sea").map Area.size = some 2 ∧
          (set.get? "Lagoon").map Area.size = some 2)
      | .error _ => false) = true := by
    decide +kernel
  refine ⟨hread, ?_⟩
  split at hread
  · rename_i set hset
    exact ⟨set, hset, (ofFeatures_gathers "seas" ["alias", "name"] seaFeatures).2.1 set hset⟩
  · exact nomatch hread

end RegionSet

end Region

end RecordQuery
