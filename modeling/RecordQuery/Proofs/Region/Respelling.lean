import RecordQuery.Proofs.Region.Merging
import RecordQuery.Proofs.Text.Wording

/-!
# Names with the same words

The name that a feature is listed under comes from the words of the text that names it, and from
nothing else in this text. Main statement: title case goes word by word, whatever blank characters
are between them, so no feature has an empty name, and features make the same areas when only the
blank characters in their names change.
-/

namespace RecordQuery.Region

open Json (Value)
open Text (HasWord Worded capitalize titleCase)

/-- These are the words of the text that names the feature. -/
def Feature.NameWords (nameKeys : List String) (feature : Feature)
    (parts : List (List Char)) : Prop :=
  ∃ text, feature.Given nameKeys text ∧ Worded text.toList parts

/-- The other feature has the same shape, and the text that names it has the same words; neither of
them has a name if the other has none. -/
structure Feature.Respells (nameKeys : List String) (feature other : Feature) : Prop where
  shape : other.shape = feature.shape
  words : ∀ parts, other.NameWords nameKeys parts ↔ feature.NameWords nameKeys parts

namespace Feature

variable {nameKeys : List String} {feature other : Feature} {name : String}

theorem nameWords_iff {parts : List (List Char)} :
    feature.NameWords nameKeys parts ↔
      (feature.properties.bind (rawName? nameKeys)).map (Text.words ·.toList) = some parts := by
  simp only [NameWords, given_iff, Text.worded_iff, Option.map_eq_some_iff]

theorem respells_of_words_eq (hshape : other.shape = feature.shape)
    (hwords : (other.properties.bind (rawName? nameKeys)).map (Text.words ·.toList) =
      (feature.properties.bind (rawName? nameKeys)).map (Text.words ·.toList)) :
    feature.Respells nameKeys other where
  shape := hshape
  words parts := by rw [nameWords_iff, nameWords_iff, hwords]

/-- The name is made of the words. -/
theorem named_iff_nameWords :
    feature.Named nameKeys name ↔ ∃ parts, feature.NameWords nameKeys parts ∧
      name.toList = List.intercalate [' '] (parts.map capitalize) := by
  constructor
  · rintro ⟨text, hgiven, rfl⟩
    refine ⟨Text.words text.toList, ⟨text, hgiven, Text.worded_iff.2 rfl⟩, ?_⟩
    rw [Text.toList_titleCase, Text.titleCaseChars]
  · rintro ⟨parts, ⟨text, hgiven, hparts⟩, hname⟩
    refine ⟨text, hgiven, String.toList_inj.1 ?_⟩
    rw [hname, Text.toList_titleCase, Text.titleCaseChars, hparts.words_eq]

theorem Named.ne_empty (h : feature.Named nameKeys name) : name ≠ "" := by
  obtain ⟨text, ⟨_, _, _, _, _, _, ⟨_, hword⟩, _⟩, rfl⟩ := h
  exact fun hempty => Text.titleCase_eq_empty_iff.1 hempty hword

/-- No key gives a text of which trimming leaves something. -/
theorem rawName?_eq_none_iff {properties : List (String × Value)} :
    rawName? nameKeys properties = none ↔ ∀ key ∈ nameKeys, ∀ text,
      Entries.find? key properties = some (.string text) → Text.trim text.toList = [] := by
  have htrim : ∀ key text, (Entries.find? key properties = some (.string text) →
      Text.trim text.toList = []) ↔ ¬ HasText properties key text := by
    intro key text
    rw [Text.trim_eq_nil_iff, ← not_and]
    rfl
  simp only [htrim, hasText_iff, rawName?, List.find?_eq_none, List.mem_filterMap, not_and,
    forall_exists_index, and_imp]
  exact ⟨fun h key hkey text hfound => h text key hkey hfound,
    fun h text key hkey hfound => h key hkey text hfound⟩

theorem displayName?_eq_none_iff_trim :
    feature.displayName? nameKeys = none ↔ ∀ properties, feature.properties = some properties →
      ∀ key ∈ nameKeys, ∀ text, Entries.find? key properties = some (.string text) →
        Text.trim text.toList = [] := by
  simp only [displayName?, Option.map_eq_none_iff, Option.bind_eq_none_iff, rawName?_eq_none_iff]

theorem Respells.displayName?_eq (h : feature.Respells nameKeys other) :
    other.displayName? nameKeys = feature.displayName? nameKeys := by
  ext name
  rw [displayName?_eq_some_iff, displayName?_eq_some_iff, named_iff_nameWords,
    named_iff_nameWords]
  simp only [h.words]

end Feature

namespace RegionSet

variable {origin : String} {nameKeys : List String} {feature other : Feature}
  {features others : List Feature}

theorem addFeature_eq_of_respells (h : feature.Respells nameKeys other) (set : RegionSet)
    (index : Nat) :
    addFeature origin nameKeys set index other = addFeature origin nameKeys set index feature := by
  unfold addFeature
  rw [h.displayName?_eq, h.shape]

-- Feature by feature the set stays the same, and so does the complaint about the first bad one.
theorem addFeatures_eq_of_respells (h : List.Forall₂ (Feature.Respells nameKeys) features others)
    (set : RegionSet) (index : Nat) :
    addFeatures origin nameKeys set index others =
      addFeatures origin nameKeys set index features := by
  induction h generalizing set index with
  | nil => rfl
  | cons hfirst _ ih =>
    unfold addFeatures
    rw [addFeature_eq_of_respells hfirst]
    simp only [ih]

end RegionSet

/-- Title case goes word by word. Of two texts with blank characters between them it leaves the
title cases of both with a space between them, or that of the one when there is no word in the
other. A text has its words in one way; its title case has these words, each of them capitalized,
and is empty just if there are none. So texts with the same words have the same title case, no
feature has an empty name, one has no name just if trimming leaves nothing of any of its texts, and
features that are spelled with other blank characters make the same set or are at fault for the same
thing. -/
theorem titleCase_word_by_word :
    (∀ a gap b : String, gap ≠ "" → (∀ c ∈ gap.toList, Text.isBlank c = true) →
      (HasWord a.toList → HasWord b.toList →
        titleCase (a ++ gap ++ b) = titleCase a ++ " " ++ titleCase b) ∧
      (¬ HasWord a.toList → titleCase (a ++ gap ++ b) = titleCase b) ∧
      (¬ HasWord b.toList → titleCase (a ++ gap ++ b) = titleCase a)) ∧
    (∀ text : String,
      (∃! parts, Worded text.toList parts) ∧
      (∀ parts, Worded text.toList parts →
        Worded (titleCase text).toList (parts.map capitalize)) ∧
      (titleCase text = "" ↔ ¬ HasWord text.toList)) ∧
    (∀ (a b : String) parts, Worded a.toList parts → Worded b.toList parts →
      titleCase a = titleCase b) ∧
    (∀ (nameKeys : List String) (feature : Feature),
      (∀ name, feature.displayName? nameKeys = some name → name ≠ "") ∧
      (feature.displayName? nameKeys = none ↔
        ∀ properties, feature.properties = some properties → ∀ key ∈ nameKeys, ∀ text,
          Entries.find? key properties = some (.string text) → Text.trim text.toList = [])) ∧
    ∀ origin nameKeys features others,
      List.Forall₂ (Feature.Respells nameKeys) features others →
      RegionSet.ofFeatures origin nameKeys others =
        RegionSet.ofFeatures origin nameKeys features := by
  refine ⟨fun a gap b hne hgap => ⟨?_, ?_, ?_⟩, fun text => ⟨?_, ?_, ?_⟩,
    fun a b parts ha hb => ?_, fun nameKeys feature => ⟨fun name hname => ?_, ?_⟩,
    fun origin nameKeys features others h => ?_⟩
  · exact Text.titleCase_append_gap hne hgap
  · exact Text.titleCase_append_gap_of_not_left hne hgap
  · exact Text.titleCase_append_gap_of_not_right hne hgap
  · simp only [Text.worded_iff]
    exact existsUnique_eq'
  · exact fun parts hparts => hparts.map_capitalize
  · exact Text.titleCase_eq_empty_iff
  · exact ha.titleCase_eq hb
  · exact (Feature.displayName?_eq_some_iff.1 hname).ne_empty
  · exact Feature.displayName?_eq_none_iff_trim
  · exact RegionSet.addFeatures_eq_of_respells h RegionSet.empty 0

/-- The features of the sea and its lagoon, with other blank characters in their names. -/
def respacedFeatures : List Feature :=
  List.zipWith (fun feature text => ⟨feature.shape, some [("name", .string text)]⟩)
    RegionSet.seaFeatures ["\u2003north\tSEA", "lagoon\u00a0", " North\n\nSea"]

/-- The sea and its lagoon do not change with the blank characters. -/
theorem respacedFeatures_same :
    (∀ c ∈ "\u00a0\t".toList, Text.isBlank c = true) ∧ HasWord "\u2003north".toList ∧
    HasWord "SEA\n".toList ∧ ¬ HasWord "\u3000".toList ∧
    titleCase ("\u2003north" ++ "\u00a0\t" ++ "SEA\n") =
      titleCase "\u2003north" ++ " " ++ titleCase "SEA\n" ∧
    titleCase ("\u3000" ++ "\u00a0\t" ++ "SEA\n") = titleCase "SEA\n" ∧
    titleCase ("\u2003north" ++ "\u00a0\t" ++ "\u3000") = titleCase "\u2003north" ∧
    Worded "\u2003north\tSEA".toList ["north".toList, "SEA".toList] ∧
    Worded "north  SEA".toList ["north".toList, "SEA".toList] ∧
    titleCase "\u2003north\tSEA" = titleCase "north  SEA" ∧
    List.Forall₂ (Feature.Respells ["alias", "name"]) RegionSet.seaFeatures respacedFeatures ∧
    RegionSet.ofFeatures "seas" ["alias", "name"] respacedFeatures =
      RegionSet.ofFeatures "seas" ["alias", "name"] RegionSet.seaFeatures := by
  have hgap : ∀ c ∈ "\u00a0\t".toList, Text.isBlank c = true :=
    List.all_eq_true.1 (by decide +kernel)
  have hnorth : HasWord "\u2003north".toList := by decide +kernel
  have hsea : HasWord "SEA\n".toList := by decide +kernel
  have hnone : ¬ HasWord "\u3000".toList := by decide +kernel
  have hspaced : Worded "\u2003north\tSEA".toList ["north".toList, "SEA".toList] :=
    Text.worded_iff.2 (by decide +kernel)
  have hplain : Worded "north  SEA".toList ["north".toList, "SEA".toList] :=
    Text.worded_iff.2 (by decide +kernel)
  have hrespelled : List.Forall₂ (Feature.Respells ["alias", "name"]) RegionSet.seaFeatures
      respacedFeatures :=
    .cons (Feature.respells_of_words_eq rfl (by decide +kernel))
      (.cons (Feature.respells_of_words_eq rfl (by decide +kernel))
        (.cons (Feature.respells_of_words_eq rfl (by decide +kernel)) .nil))
  obtain ⟨hseam, _, htitle, _, hsame⟩ := titleCase_word_by_word
  have hgap_ne : "\u00a0\t" ≠ "" := by decide
  exact ⟨hgap, hnorth, hsea, hnone, (hseam _ _ _ hgap_ne hgap).1 hnorth hsea,
    (hseam _ _ _ hgap_ne hgap).2.1 hnone, (hseam _ _ _ hgap_ne hgap).2.2 hnone, hspaced, hplain,
    htitle _ _ _ hspaced hplain, hrespelled, hsame _ _ _ _ hrespelled⟩

end RecordQuery.Region
