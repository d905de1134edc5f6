import RecordQuery.Proofs.Region.Merging
import RecordQuery.Proofs.Text.Recapitalizing

/-!
# Boundary sets under listed names

Features may already have the names that a boundary set lists them under. Main statement: a set of
such features has the title cases of these names, and it is the set they are taken from just if the
names that came first are in title case for good once they are put in it.
-/

namespace RecordQuery.Region

open Text (titleCase StartsPlain)

/-- The other feature has the same shape, and its keys give the name that this one is listed
under. -/
structure Feature.Relabels (nameKeys keys : List String) (feature other : Feature) : Prop where
  shape : other.shape = feature.shape
  given : ∃ name, feature.Named nameKeys name ∧ other.Given keys name

/-- What a feature brings whose name is the name of this part. -/
def Part.renamed (part : Part) : Part := { part with name := titleCase part.name }

section Features

variable {nameKeys keys : List String} {features others : List Feature} {parts : List Part}

theorem Feature.Relabels.brings {feature other : Feature} {part : Part}
    (h : feature.Relabels nameKeys keys other) (hpart : feature.Brings nameKeys part) :
    other.Brings keys part.renamed := by
  obtain ⟨name, hname, hgiven⟩ := h.given
  obtain rfl := hpart.1.unique hname
  exact ⟨⟨part.name, hgiven, rfl⟩, h.shape ▸ hpart.2⟩

theorem forall₂_brings_renamed (h : List.Forall₂ (Feature.Relabels nameKeys keys) features others)
    (hparts : List.Forall₂ (Feature.Brings nameKeys) features parts) :
    List.Forall₂ (Feature.Brings keys) others (parts.map Part.renamed) := by
  induction h generalizing parts with
  | nil =>
    rw [List.forall₂_nil_left_iff.1 hparts]
    exact .nil
  | cons hfirst _ ih =>
    obtain ⟨part, parts, hpart, hrest, rfl⟩ := List.forall₂_cons_left_iff.1 hparts
    exact .cons (hfirst.brings hpart) (ih hrest)

theorem mem_map_name_renamed {name : String} :
    name ∈ (parts.map Part.renamed).map Part.name ↔
      ∃ old ∈ parts.map Part.name, name = titleCase old := by
  simp only [List.map_map, List.mem_map, Function.comp_apply, exists_exists_and_eq_and,
    Part.renamed]
  exact exists_congr fun _ => and_congr_right fun _ => eq_comm

/-- Parts keep their names when all of these come from texts with a plain start. -/
theorem map_renamed_eq_self (h : List.Forall₂ (Feature.Brings nameKeys) features parts)
    (hplain : ∀ feature ∈ features, ∀ text, feature.Given nameKeys text → StartsPlain text) :
    parts.map Part.renamed = parts := by
  rw [List.map_congr_left (g := id) fun part hpart => ?_, List.map_id]
  obtain ⟨feature, hfeature, ⟨text, htext, hname⟩, _⟩ := exists_of_forall₂_of_mem h hpart
  have hstays := (Text.titleCase_titleCase_eq_iff text).2 (hplain feature hfeature text htext)
  rw [← hname] at hstays
  rw [Part.renamed, hstays]
  rfl

-- A name that comes from another name by title case was in title case twice.
theorem startsPlain_of_names (h : List.Forall₂ (Feature.Brings nameKeys) features parts)
    (hnames : ∀ name ∈ parts.map Part.name, ∃ old ∈ parts.map Part.name, name = titleCase old)
    {feature : Feature} (hfeature : feature ∈ features) {text : String}
    (htext : feature.Given nameKeys text) : StartsPlain text := by
  have hmem : titleCase text ∈ parts.map Part.name :=
    (RegionSet.mem_map_name_iff_of_brings h).2 ⟨feature, hfeature, text, htext, rfl⟩
  obtain ⟨old, hold, heq⟩ := hnames _ hmem
  obtain ⟨_, _, other, _, rfl⟩ := (RegionSet.mem_map_name_iff_of_brings h).1 hold
  rw [← Text.titleCase_titleCase_eq_iff, heq, Text.titleCase_titleCase_titleCase]

end Features

namespace RegionSet

theorem exists_relabelled {nameKeys keys : List String} {features others : List Feature}
    {origin : String} {set : RegionSet} (hset : ofFeatures origin nameKeys features = .ok set)
    (h : List.Forall₂ (Feature.Relabels nameKeys keys) features others) (place : String) :
    ∃ again, ofFeatures place keys others = .ok again ∧
      (∀ name, name ∈ again.names ↔ ∃ old ∈ set.names, name = titleCase old) ∧
      ((∀ feature ∈ features, ∀ text, feature.Given nameKeys text → StartsPlain text) →
        again = set) ∧
      (again.names = set.names →
        ∀ feature ∈ features, ∀ text, feature.Given nameKeys text → StartsPlain text) := by
  obtain ⟨parts, hparts, rfl⟩ := addFeatures_eq_ok_iff.1 hset
  have hrenamed := forall₂_brings_renamed h hparts
  have hagain : ofFeatures place keys others = .ok (empty.addParts (parts.map Part.renamed)) :=
    addFeatures_eq_ok_iff.2 ⟨_, hrenamed, rfl⟩
  have hnames : ∀ name, name ∈ (empty.addParts (parts.map Part.renamed)).names ↔
      ∃ old ∈ (empty.addParts parts).names, name = titleCase old := by
    intro name
    simp only [(gathers_empty.addParts _).mem_names_iff, List.nil_append, mem_map_name_renamed]
  refine ⟨_, hagain, hnames, fun hplain => ?_, fun hsame feature hfeature text htext => ?_⟩
  · rw [map_renamed_eq_self hparts hplain]
  · refine startsPlain_of_names hparts (fun name hname => ?_) hfeature htext
    have hmem : ∀ name, name ∈ (empty.addParts parts).names ↔ name ∈ parts.map Part.name :=
      fun name => (gathers_empty.addParts parts).mem_names_iff
    simp only [hsame, hmem] at hnames
    exact (hnames name).1 hname

/-- The title case of a text is its own title case, with small letters behind the first of each
word, just if no word of the text starts with a letter whose upper case brings more letters that are
not small; the title case of a title case always is. So a boundary set of features that have the
names another is listed under keeps these names, and is the same set, just if the names of the other
come from such texts; in any case its own names are the title cases of these names. -/
theorem relabelled_same_iff_startsPlain :
    (∀ text, (titleCase (titleCase text) = titleCase text ↔ StartsPlain text) ∧
      ((∀ word ∈ Text.words (titleCase text).toList, Text.SmallBehindFirst word) ↔
        StartsPlain text) ∧
      titleCase (titleCase (titleCase text)) = titleCase (titleCase text)) ∧
    ∀ origin place nameKeys keys features others set,
      ofFeatures origin nameKeys features = .ok set →
      List.Forall₂ (Feature.Relabels nameKeys keys) features others →
      ∃ again, ofFeatures place keys others = .ok again ∧
        (∀ name, name ∈ again.names ↔ ∃ old ∈ set.names, name = titleCase old) ∧
        ((∀ feature ∈ features, ∀ text, feature.Given nameKeys text → StartsPlain text) →
          again = set) ∧
        (again.names = set.names →
          ∀ feature ∈ features, ∀ text, feature.Given nameKeys text → StartsPlain text) :=
  ⟨fun text => ⟨Text.titleCase_titleCase_eq_iff text,
      Text.smallBehindFirst_words_titleCase_iff text, Text.titleCase_titleCase_titleCase text⟩,
    fun _ place _ _ _ _ _ hset h => exists_relabelled hset h place⟩

/-- The features of the sea and its lagoon under the names that these are listed under. -/
def listedFeatures : List Feature :=
  List.zipWith (fun feature name => ⟨feature.shape, some [("name", .string name)]⟩) seaFeatures
    ["North Sea", "Lagoon", "North Sea"]

/-- The sea and its lagoon keep their listed names. -/
theorem listedFeatures_same :
    ∃ set, ofFeatures "seas" ["alias", "name"] seaFeatures = .ok set ∧
      List.Forall₂ (Feature.Relabels ["alias", "name"] ["name"]) seaFeatures listedFeatures ∧
      set.names = ["Lagoon", "North Sea"] ∧
      ofFeatures "listed" ["name"] listedFeatures = .ok set := by
  have hplain : ∀ feature ∈ seaFeatures,
      ∀ text ∈ feature.properties.bind (rawName? ["alias", "name"]), StartsPlain text := by
    decide +kernel
  have hnames : ((ofFeatures "seas" ["alias", "name"] seaFeatures).toOption.map names) =
      some ["Lagoon", "North Sea"] := by
    decide +kernel
  have hrelabels : ∀ {feature : Feature} {name : String},
      feature.displayName? ["alias", "name"] = some name →
      rawName? ["name"] [("name", .string name)] = some name →
      feature.Relabels ["alias", "name"] ["name"]
        ⟨feature.shape, some [("name", .string name)]⟩ := fun hname hgiven =>
    ⟨rfl, _, Feature.displayName?_eq_some_iff.1 hname, Feature.given_iff.2 hgiven⟩
  have hlisted : List.Forall₂ (Feature.Relabels ["alias", "name"] ["name"]) seaFeatures
      listedFeatures :=
    .cons (hrelabels (by decide +kernel) (by decide +kernel))
      (.cons (hrelabels (by decide +kernel) (by decide +kernel))
        (.cons (hrelabels (by decide +kernel) (by decide +kernel)) .nil))
  obtain ⟨set, hset, hsetNames⟩ := Option.map_eq_some_iff.1 hnames
  rw [toOption_eq_some_iff] at hset
  obtain ⟨again, hagain, _, hsame, _⟩ := relabelled_same_iff_startsPlain.2 "seas" "listed"
    ["alias", "name"] ["name"] seaFeatures listedFeatures set hset hlisted
  obtain rfl := hsame fun feature hfeature text htext =>
    hplain feature hfeature text (Feature.given_iff.1 htext)
  exact ⟨again, hset, hlisted, hsetNames, hagain⟩

/-- A sea whose name is a single letter. -/
def letterFeatures (letter : String) : List Feature :=
  [⟨.multiPolygon [], some [("name", .string letter)]⟩]

/-- The upper case of one small letter is two capitals, the second of which becomes small when the
listed name is read again. -/
theorem sharpS_not_same :
    titleCase "ß" = "SS" ∧ titleCase (titleCase "ß") = "Ss" ∧
    Text.words (titleCase "ß").toList = [['S', 'S']] ∧ ¬ Text.SmallBehindFirst ['S', 'S'] ∧
    (ofFeatures "seas" ["name"] (letterFeatures "ß")).toOption.map names = some ["SS"] ∧
    (ofFeatures "listed" ["name"] (letterFeatures "SS")).toOption.map names = some ["Ss"] := by
  decide +kernel

end RegionSet

end RecordQuery.Region
