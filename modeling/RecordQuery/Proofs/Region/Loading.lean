import RecordQuery.Proofs.Outcome
import RecordQuery.Region.Set

/-!
# Which areas a boundary set holds

A set is read feature by feature, and features of one name are put together. Main statement: an
area that was read has a polygon just when one of the features of its name has.
-/

namespace RecordQuery

namespace Area

theorem add_polygons_ne_nil (area : Area) (polygon : Polygon) :
    (area.add polygon).polygons ≠ [] := by
  rw [add]
  by_cases h : area.contains polygon = true
  · rw [if_pos h]
    intro hnil
    rw [contains, hnil] at h
    exact Bool.false_ne_true h
  · rw [if_neg h]
    exact List.append_ne_nil_of_right_ne_nil area.polygons (List.cons_ne_nil polygon [])

theorem foldl_add_polygons_ne_nil_iff {polygons : List Polygon} {area : Area} :
    (polygons.foldl add area).polygons ≠ [] ↔ area.polygons ≠ [] ∨ polygons ≠ [] := by
  induction polygons generalizing area with
  | nil => exact ⟨.inl, fun h => h.resolve_right fun hne => hne rfl⟩
  | cons polygon rest ih =>
    rw [List.foldl_cons, ih]
    exact ⟨fun _ => .inr (List.cons_ne_nil polygon rest),
      fun _ => .inl (area.add_polygons_ne_nil polygon)⟩

end Area

namespace Region

/-- The shape has a polygon; only one of many polygons can have none. -/
def Shape.HasPolygon : Shape → Prop
  | .polygon _ => True
  | .multiPolygon polygons => polygons ≠ []

theorem Shape.polygons_ne_nil_iff {shape : Shape} {polygons : List Polygon}
    (h : shape.polygons = .ok polygons) : polygons ≠ [] ↔ shape.HasPolygon := by
  cases shape with
  | polygon rings =>
    obtain ⟨polygon, _, h⟩ := bind_eq_ok_iff.1 h
    obtain rfl := Except.ok.inj h
    exact ⟨fun _ => True.intro, fun _ => List.cons_ne_nil polygon []⟩
  | multiPolygon coordinates =>
    have hlength := (mapM_eq_ok_iff.1 h).length_eq
    rw [HasPolygon, ← List.length_pos_iff, ← List.length_pos_iff, hlength]

namespace RegionSet

/-- There is an area of this name, and it has a polygon. -/
def Encloses (set : RegionSet) (name : String) : Prop :=
  ∃ area, set.get? name = some area ∧ area.polygons ≠ []

theorem encloses_empty (name : String) : ¬ empty.Encloses name :=
  fun ⟨_, h, _⟩ => nomatch h

theorem get?_add (set : RegionSet) (name other : String) (polygons : List Polygon) :
    (set.add name polygons).get? other =
      if name = other then some (polygons.foldl Area.add ((set.get? name).getD Area.empty))
      else set.get? other :=
  SortedMap.get?_insert set.areas name other _

theorem encloses_add_iff {set : RegionSet} {name other : String} {polygons : List Polygon} :
    (set.add name polygons).Encloses other ↔
      set.Encloses other ∨ name = other ∧ polygons ≠ [] := by
  rw [Encloses, get?_add]
  by_cases h : name = other
  · subst h
    simp only [if_true, true_and, Option.some.injEq, exists_eq_left', Encloses,
      Area.foldl_add_polygons_ne_nil_iff]
    cases hfound : set.get? name with
    | none => simp [Area.empty]
    | some area => simp
  · rw [if_neg h]
    simp only [h, false_and, or_false, Encloses]

section Reading

variable {origin name : String} {nameKeys : List String} {set read : RegionSet} {index : Nat}

theorem addFeature_eq_ok_iff_exists {feature : Feature} :
    addFeature origin nameKeys set index feature = .ok read ↔
      ∃ given polygons, feature.displayName? nameKeys = some given ∧
        feature.shape.polygons = .ok polygons ∧ read = set.add given polygons := by
  unfold addFeature
  constructor
  · intro h
    split at h
    · cases h
    · rename_i given hname
      split at h
      · cases h
      · rename_i polygons hpolygons
        exact ⟨given, polygons, hname, hpolygons, (Except.ok.inj h).symm⟩
  · rintro ⟨given, polygons, hname, hpolygons, rfl⟩
    simp only [hname, hpolygons]

-- A feature adds to the area of its name, and to no other.
theorem encloses_addFeature_iff {feature : Feature}
    (h : addFeature origin nameKeys set index feature = .ok read) :
    read.Encloses name ↔ set.Encloses name ∨
      feature.displayName? nameKeys = some name ∧ feature.shape.HasPolygon := by
  obtain ⟨given, polygons, hname, hpolygons, rfl⟩ := addFeature_eq_ok_iff_exists.1 h
  rw [encloses_add_iff, Shape.polygons_ne_nil_iff hpolygons, hname, Option.some.injEq]

theorem encloses_addFeatures_iff {features : List Feature}
    (h : addFeatures origin nameKeys set index features = .ok read) :
    read.Encloses name ↔ set.Encloses name ∨
      ∃ feature ∈ features,
        feature.displayName? nameKeys = some name ∧ feature.shape.HasPolygon := by
  induction features generalizing set index with
  | nil =>
    obtain rfl := Except.ok.inj h
    simp only [List.not_mem_nil, false_and, exists_false, or_false]
  | cons feature rest ih =>
    rw [addFeatures] at h
    split at h
    · exact nomatch h
    · rename_i next hfeature
      rw [ih h, encloses_addFeature_iff hfeature, or_assoc]
      simp only [List.mem_cons, or_and_right, exists_or, exists_eq_left]

theorem parse_eq_ok_iff {bytes : List UInt8} :
    parse bytes origin nameKeys = .ok read ↔
      ∃ features, parseFeatures bytes = .ok features ∧
        ofFeatures origin nameKeys features = .ok read := by
  rw [parse]
  cases parseFeatures bytes with
  | error cause => simp only [reduceCtorEq, false_and, exists_false]
  | ok features => simp only [Except.ok.injEq, exists_eq_left']

/-- The bytes have a feature of this name that has a polygon. -/
def Outlined (bytes : List UInt8) (nameKeys : List String) (name : String) : Prop :=
  ∃ features, parseFeatures bytes = .ok features ∧
    ∃ feature ∈ features, feature.displayName? nameKeys = some name ∧ feature.shape.HasPolygon

/-- What a set encloses is what was drawn in the bytes it was read from. -/
theorem encloses_iff_of_parse {bytes : List UInt8}
    (h : parse bytes origin nameKeys = .ok read) :
    read.Encloses name ↔ Outlined bytes nameKeys name := by
  obtain ⟨features, hfeatures, hread⟩ := parse_eq_ok_iff.1 h
  rw [encloses_addFeatures_iff hread, or_iff_right (encloses_empty name)]
  constructor
  · intro hfeature
    exact ⟨features, hfeatures, hfeature⟩
  · rintro ⟨others, hothers, hfeature⟩
    obtain rfl := Except.ok.inj (hfeatures.symm.trans hothers)
    exact hfeature

end Reading

end RegionSet

/-! ## Sets of all categories -/

/-- What the boundary set of a category is read from; `origin` is what errors call it. -/
structure BoundaryText where
  origin : String
  bytes : List UInt8
  nameKeys : List String

/-- The set of each category that has one was read from a text. -/
def Lookup.ReadFrom (texts : Category → Option BoundaryText) (lookup : Lookup) : Prop :=
  ∀ category set, lookup.set? category = some set → ∃ text, texts category = some text ∧
    RegionSet.parse text.bytes text.origin text.nameKeys = .ok set

theorem Lookup.set?_insert (lookup : Lookup) (category other : Category) (set : RegionSet) :
    (lookup.insert category set).set? other =
      if category = other then some set else lookup.set? other := by
  cases category <;> cases other <;> rfl

theorem Lookup.get?_eq_some_iff {lookup : Lookup} {category name : String} {area : Area} :
    lookup.get? category name = some area ↔ ∃ found set, Category.ofName? category = some found ∧
      lookup.set? found = some set ∧ set.get? name = some area := by
  rw [get?]
  simp only [Option.bind_eq_bind, Option.bind_eq_some_iff]
  constructor
  · rintro ⟨found, hfound, set, hset, harea⟩
    exact ⟨found, set, hfound, hset, harea⟩
  · rintro ⟨found, set, hfound, hset, harea⟩
    exact ⟨found, hfound, set, hset, harea⟩

theorem Lookup.readFrom_empty : Lookup.empty.ReadFrom fun _ => none := by
  intro category set hset
  cases category <;> exact nomatch hset

theorem Lookup.ReadFrom.insert {texts : Category → Option BoundaryText} {lookup : Lookup}
    (h : lookup.ReadFrom texts) (category : Category) {text : BoundaryText} {set : RegionSet}
    (hparse : RegionSet.parse text.bytes text.origin text.nameKeys = .ok set) :
    (lookup.insert category set).ReadFrom (Function.update texts category (some text)) := by
  intro other found hfound
  rw [set?_insert] at hfound
  by_cases hother : category = other
  · subst hother
    rw [if_pos rfl, Option.some.injEq] at hfound
    subst hfound
    exact ⟨text, Function.update_self .., hparse⟩
  · rw [if_neg hother] at hfound
    rw [Function.update_of_ne (Ne.symm hother)]
    exact h other found hfound

/-- The text of the category has a feature of this name that has a polygon. -/
def Outlined (texts : Category → Option BoundaryText) (category name : String) : Prop :=
  ∃ found text, Category.ofName? category = some found ∧ texts found = some text ∧
    RegionSet.Outlined text.bytes text.nameKeys name

theorem Lookup.ReadFrom.polygons_ne_nil_iff {texts : Category → Option BoundaryText}
    {lookup : Lookup} (h : lookup.ReadFrom texts) {category name : String} {area : Area}
    (harea : lookup.get? category name = some area) :
    area.polygons ≠ [] ↔ Outlined texts category name := by
  obtain ⟨found, set, hcategory, hset, harea⟩ := Lookup.get?_eq_some_iff.1 harea
  obtain ⟨text, htext, hparse⟩ := h found set hset
  have hencloses : area.polygons ≠ [] ↔ set.Encloses name := by
    rw [RegionSet.Encloses, harea]
    simp only [Option.some.injEq, exists_eq_left']
  rw [hencloses, RegionSet.encloses_iff_of_parse hparse]
  constructor
  · intro houtlined
    exact ⟨found, text, hcategory, htext, houtlined⟩
  · rintro ⟨other, otherText, hother, hotherText, houtlined⟩
    obtain rfl := Option.some.inj (hcategory.symm.trans hother)
    obtain rfl := Option.some.inj (htext.symm.trans hotherText)
    exact houtlined

/-! ## Sets in files -/

section Files

variable {files : Files Id}

theorem RegionSet.run_load {path : Path} {nameKeys : List String} {bytes : List UInt8}
    (h : Id.run (files.read path) = .ok bytes) :
    Id.run (load files path nameKeys) = parse bytes path.text nameKeys := by
  rw [load, Id.run_bind, h]
  rfl

theorem RegionSet.parse_of_load {path : Path} {nameKeys : List String} {set : RegionSet}
    (h : Id.run (load files path nameKeys) = .ok set) :
    ∃ bytes, Id.run (files.read path) = .ok bytes ∧ parse bytes path.text nameKeys = .ok set := by
  rw [load] at h
  simp only [Id.run_bind] at h
  split at h
  · exact nomatch h
  · exact nomatch h
  · rename_i bytes hbytes
    exact ⟨bytes, hbytes, h⟩

/-- The text is in the file of a source of this category. -/
def BoundaryText.StandsIn (files : Files Id) (sources : List Source) (category : Category)
    (text : BoundaryText) : Prop :=
  ∃ source ∈ sources, source.category = category ∧ source.nameKeys = text.nameKeys ∧
    Id.run (files.read source.path) = .ok text.bytes

theorem Lookup.loadOnto_cons (lookup : Lookup) (source : Source) (rest : List Source) :
    Id.run (loadOnto files lookup (source :: rest)) =
      match Id.run (RegionSet.load files source.path source.nameKeys) with
      | .error error => .error error
      | .ok set => Id.run (loadOnto files (lookup.insert source.category set) rest) := by
  rw [loadOnto, Id.run_bind]
  cases Id.run (RegionSet.load files source.path source.nameKeys) <;> rfl

-- One source after the other, the sets at hand are read from texts.
theorem Lookup.readFrom_of_loadOnto {sources : List Source} {lookup loaded : Lookup}
    {texts : Category → Option BoundaryText}
    (h : Id.run (loadOnto files lookup sources) = .ok loaded) (hlookup : lookup.ReadFrom texts) :
    ∃ others, loaded.ReadFrom others ∧ ∀ category text, others category = some text →
      texts category = some text ∨ text.StandsIn files sources category := by
  induction sources generalizing lookup texts with
  | nil =>
    obtain rfl := Except.ok.inj h
    exact ⟨texts, hlookup, fun _ _ htext => .inl htext⟩
  | cons source rest ih =>
    rw [loadOnto_cons] at h
    split at h
    · exact nomatch h
    · rename_i set hload
      obtain ⟨bytes, hbytes, hparse⟩ := RegionSet.parse_of_load hload
      let text : BoundaryText := ⟨source.path.text, bytes, source.nameKeys⟩
      have htext : RegionSet.parse text.bytes text.origin text.nameKeys = .ok set := hparse
      obtain ⟨others, hothers, htexts⟩ := ih h (hlookup.insert source.category htext)
      refine ⟨others, hothers, fun category other hother => ?_⟩
      rcases htexts category other hother with hbefore | ⟨stood, hstood, hsource⟩
      · by_cases hcategory : source.category = category
        · subst hcategory
          rw [Function.update_self, Option.some.injEq] at hbefore
          subst hbefore
          exact .inr ⟨source, List.mem_cons_self, rfl, rfl, hbytes⟩
        · rw [Function.update_of_ne (Ne.symm hcategory)] at hbefore
          exact .inl hbefore
      · exact .inr ⟨stood, List.mem_cons_of_mem source hstood, hsource⟩

/-- The sets of a lookup that was loaded were read from the files of the sources. -/
theorem Lookup.readFrom_of_load {sources : List Source} {lookup : Lookup}
    (h : Id.run (load files sources) = .ok lookup) :
    ∃ texts, lookup.ReadFrom texts ∧ ∀ category text, texts category = some text →
      text.StandsIn files sources category := by
  obtain ⟨texts, htexts, hstands⟩ := readFrom_of_loadOnto h readFrom_empty
  refine ⟨texts, htexts, fun category text htext => ?_⟩
  exact (hstands category text htext).resolve_left fun h => nomatch h

end Files

end Region

end RecordQuery
