import RecordQuery.Proofs.Command.Boundaries
import RecordQuery.Proofs.Query.NormalForm
import RecordQuery.Proofs.Region.Merging
import RecordQuery.Proofs.Region.Sources
import RecordQuery.Proofs.Text.ByteOrder
import RecordQuery.Proofs.Text.TitleCase

/-!
# Listing named areas

The areas of a category are listed by name, a line for each. Main statement: a query for an area
is compiled just when the area is listed, and the names can be told from the lines.
-/

namespace RecordQuery

/-! ## Names of areas -/

namespace Region

theorem Feature.Named.tidy {nameKeys : List String} {feature : Feature} {name : String}
    (h : feature.Named nameKeys name) : Text.Tidy name.toList := by
  obtain ⟨text, ⟨_, _, _, _, _, _, htext, _⟩, rfl⟩ := h
  exact Text.tidy_titleCase htext.2

theorem RegionSet.tidy_of_parse {bytes : List UInt8} {origin name : String}
    {nameKeys : List String} {set : RegionSet} (h : parse bytes origin nameKeys = .ok set)
    (hname : name ∈ set.names) : Text.Tidy name.toList := by
  obtain ⟨features, _, hread⟩ := parse_eq_ok_iff.1 h
  obtain ⟨parts, hparts, hgathers⟩ := gathers_of_ofFeatures hread
  obtain ⟨feature, _, hnamed⟩ :=
    (mem_map_name_iff_of_brings hparts).1 (hgathers.mem_names_iff.1 hname)
  exact hnamed.tidy

namespace Lookup

variable {lookup : Lookup} {category : Category} {name : String}

theorem ReadFrom.tidy_of_mem_names {texts : Category → Option BoundaryText}
    (h : lookup.ReadFrom texts) (hname : name ∈ lookup.names category) :
    Text.Tidy name.toList := by
  rw [names] at hname
  split at hname
  · rename_i set hset
    obtain ⟨text, _, hparse⟩ := h category set hset
    exact RegionSet.tidy_of_parse hparse hname
  · exact absurd hname List.not_mem_nil

end Lookup

end Region

namespace Command

open Json (Value)
open Query (Compiler Document NamedArea)
open Region (BoundaryText Category Lookup)

/-! ## Lines -/

theorem toList_lines_cons (text : String) (texts : List String) :
    (lines (text :: texts)).toList = text.toList ++ '\n' :: (lines texts).toList := by
  simp [lines, line]

-- Each text is a line of its own; behind the last line break there is nothing.
theorem pieces_lines {texts : List String} (h : ∀ text ∈ texts, '\n' ∉ text.toList) :
    Text.pieces '\n' (lines texts).toList = texts.map String.toList ++ [[]] := by
  induction texts with
  | nil => rfl
  | cons text texts ih =>
    obtain ⟨htext, htexts⟩ := List.forall_mem_cons.1 h
    rw [toList_lines_cons, Text.pieces_append_cons, Text.pieces_of_not_mem htext, ih htexts]
    rfl

/-- The text has a line for each of the names, which are tidy, and whose bytes are in strictly
increasing order. -/
structure Lists (names : List String) (text : String) : Prop where
  lines : Text.pieces '\n' text.toList = names.map String.toList ++ [[]]
  tidy : ∀ name ∈ names, Text.Tidy name.toList
  increasing : names.Pairwise fun name other => name.toUTF8.toList < other.toUTF8.toList

theorem lists_regionsText {lookup : Lookup} {texts : Category → Option BoundaryText}
    (h : lookup.ReadFrom texts) (category : Category) :
    Lists (lookup.names category) (regionsText lookup (some category) false) where
  lines := pieces_lines fun name hname hmem => by
    have hspace := (h.tidy_of_mem_names hname).eq_space_of_mem hmem (by decide)
    exact absurd hspace (by decide)
  tidy _ hname := h.tidy_of_mem_names hname
  increasing := (lookup.pairwise_names category).imp Text.toUTF8_lt

/-! ## Asking for a category and for an area -/

theorem parse_regions (category : Category) :
    parse [Name.regions.text, category.name] =
      .ok ⟨none, none, .regions (some category) false⟩ := by
  cases category <;> rfl

/-- A query for the records within a named area. -/
def areaQuery (category : Category) (name : String) : Value :=
  .object [("filters", .object [("geo_named_area", .object [(category.name, .string name)])])]

/-- Besides a search perhaps, the document asks for a named area and nothing else. -/
def AsksForArea (category : Category) (name : String) (document : Document) : Prop :=
  document.filter = some (.term (.namedArea ⟨category.name, name⟩))

theorem ofValue_areaQuery (category : Category) (name : String) :
    ∃ document, Document.ofValue (areaQuery category name) = .ok document ∧
      AsksForArea category name document :=
  ⟨⟨none, _⟩, rfl, rfl⟩

section Queries

variable {lookup : Lookup} {names : FieldNames} {category : Category} {name : String}
  {query : Value} {document : Document}

theorem AsksForArea.namedAreas_eq (h : AsksForArea category name document) :
    document.namedAreas = [⟨category.name, name⟩] := by
  rw [Document.namedAreas, h]
  rfl

theorem exists_compile_eq_ok_iff_mem_names (hread : Document.ofValue query = .ok document)
    (h : AsksForArea category name document) :
    (∃ clause, (Schema.first ⟨lookup, names⟩).compile query = .ok clause) ↔
      name ∈ lookup.names category := by
  have hcompile : (Schema.first ⟨lookup, names⟩).compile query =
      Compiler.document ⟨lookup, names⟩ document := Schema.compileWith_of_ofValue_eq_ok hread
  rw [hcompile, ← failure?_eq_none_iff, Compiler.failure?_document, Option.map_eq_none_iff,
    Compiler.firstUnknown?_eq_none_iff, h.namedAreas_eq, List.forall_mem_singleton,
    Lookup.mem_names_iff]
  rfl

end Queries

/-! ## Two commands on one machine -/

section Settings

variable {m : Type → Type} [Monad m] [LawfulMonad m]

def effectiveSettings (world : World m) (settingsFile : Option Path) :
    ExceptT Failure m Settings := do
  loadSettings world (← settingsFiles world settingsFile)

theorem output_regions (world : World m) (settingsFile : Option Path) (version : Option String)
    (category : Option Category) (json : Bool) :
    output world ⟨settingsFile, version, .regions category json⟩ = (do
      let effective ← effectiveSettings world settingsFile
      return regionsText (← loadRegions world effective) category json) := by
  simp [output, effectiveSettings]

theorem prepare_eq_bind (world : World m) (settingsFile file : Option Path) :
    prepare world settingsFile file = (do
      let effective ← effectiveSettings world settingsFile
      let query ← readQuery world file
      return (effective, query)) := by
  simp [prepare, effectiveSettings]

end Settings

section Machine

variable {world : World Id} {settingsFile file : Option Path} {version : Option String}
  {effective : Settings} {query : Value} {lookup : Lookup}

theorem Outcome.of_eq_iff {complaint : Path → Option String} {result : Except Failure String}
    {text : String} :
    Outcome.of complaint result = ⟨0, text, ""⟩ ↔ result = .ok text := by
  cases result with
  | error failure =>
    have hcode : (1 : UInt8) ≠ 0 := by decide
    exact ⟨fun h => absurd (congrArg exitCode h) hcode, fun h => nomatch h⟩
  | ok other => simp [Outcome.of]

-- What is listed comes from the boundary files of the settings in effect.
theorem exists_lookup_of_run_regions {category : Option Category} {json : Bool} {text : String}
    (h : Id.run (run world ⟨settingsFile, version, .regions category json⟩) = ⟨0, text, ""⟩) :
    ∃ effective lookup, Id.run (effectiveSettings world settingsFile).run = .ok effective ∧
      Id.run (loadRegions world effective).run = .ok lookup ∧
      text = regionsText lookup category json := by
  have houtput := Outcome.of_eq_iff.1 h
  rw [output_regions] at houtput
  obtain ⟨effective, heffective, hrest⟩ := run_bind_eq_ok_iff.1 houtput
  obtain ⟨lookup, hlookup, htext⟩ := run_bind_eq_ok_iff.1 hrest
  exact ⟨effective, lookup, heffective, hlookup, (Except.ok.inj htext).symm⟩

theorem exists_readFrom_of_loadRegions (h : Id.run (loadRegions world effective).run = .ok lookup) :
    ∃ texts, lookup.ReadFrom texts := by
  obtain ⟨texts, htexts, _⟩ := Lookup.readFrom_of_load (run_attempt.1 h)
  exact ⟨texts, htexts⟩

theorem exitCode_run_translate_eq_zero_iff {layout : Layout}
    (hprepare : Id.run (prepare world settingsFile file).run = .ok (effective, query))
    (hasks : asksForAreas query = true) (hversion : VersionKnown effective version)
    (hlookup : Id.run (loadRegions world effective).run = .ok lookup) :
    (Id.run (run world ⟨settingsFile, version, .translate file layout⟩)).exitCode = 0 ↔
      ∃ clause, (Schema.first ⟨lookup, effective.fields⟩).compile query = .ok clause := by
  have hrun : Id.run (run world ⟨settingsFile, version, .translate file layout⟩) =
      Outcome.of world.complaint
        (Id.run (output world ⟨settingsFile, version, .translate file layout⟩).run) := rfl
  rw [hrun, Outcome.exitCode_of_eq_zero_iff, output_translate, bind_of_run_eq_ok hprepare]
  simp only [schemaFor_of_asksForAreas world hasks, bind_of_run_eq_ok hlookup,
    chooseSchema_of_known hversion, attempt_ok, pure_bind, run_bind_eq_ok_iff, run_attempt]
  constructor
  · rintro ⟨_, clause, hclause, _⟩
    exact ⟨clause, hclause⟩
  · rintro ⟨clause, hclause⟩
    exact ⟨_, clause, hclause, rfl⟩

end Machine

/-- What is listed is what queries accept, and a category has one name for both. Whatever areas
there are, a query for one of them is compiled just when it is among the names; the names of areas
that were read are listed one to a line; and where a machine lists areas, it compiles queries for
just these. -/
theorem listed_iff_compiled :
    (∀ category name,
      parse [Name.regions.text, Category.name category] =
        .ok ⟨none, none, .regions (some category) false⟩ ∧
      ∃ document, Document.ofValue (areaQuery category name) = .ok document ∧
        AsksForArea category name document) ∧
    (∀ (lookup : Lookup) (fields : FieldNames) (category : Category) (name : String)
      (query : Value) (document : Document), Document.ofValue query = .ok document →
      AsksForArea category name document →
      (name ∈ lookup.names category ↔
        ∃ clause, (Schema.first ⟨lookup, fields⟩).compile query = .ok clause)) ∧
    (∀ (lookup : Lookup) (texts : Category → Option BoundaryText) (category : Category),
      lookup.ReadFrom texts →
      Lists (lookup.names category) (regionsText lookup (some category) false)) ∧
    ∀ (world : World Id) (settingsFile : Option Path) (version : Option String)
      (category : Category) (text : String),
      Id.run (run world ⟨settingsFile, version, .regions (some category) false⟩) = ⟨0, text, ""⟩ →
      ∃ names, Lists names text ∧
        ∀ (file : Option Path) (layout : Layout) (effective : Settings) (query : Value)
          (document : Document) (name : String),
          Id.run (prepare world settingsFile file).run = .ok (effective, query) →
          VersionKnown effective version → Document.ofValue query = .ok document →
          AsksForArea category name document →
          (name ∈ names ↔ (Id.run
            (run world ⟨settingsFile, version, .translate file layout⟩)).exitCode = 0) := by
  refine ⟨fun category name => ⟨parse_regions category, ofValue_areaQuery category name⟩,
    fun _ _ _ _ _ _ hread h => (exists_compile_eq_ok_iff_mem_names hread h).symm,
    fun _ _ category h => lists_regionsText h category, ?_⟩
  intro world settingsFile version category text h
  obtain ⟨effective, lookup, heffective, hlookup, rfl⟩ := exists_lookup_of_run_regions h
  obtain ⟨texts, htexts⟩ := exists_readFrom_of_loadRegions hlookup
  refine ⟨lookup.names category, lists_regionsText htexts category, ?_⟩
  intro file layout prepared query document name hprepare hversion hread harea
  -- Both commands run with the same settings, so they load the same areas.
  have hsame : prepared = effective := by
    rw [prepare_eq_bind, bind_of_run_eq_ok heffective] at hprepare
    obtain ⟨_, _, hpair⟩ := run_bind_eq_ok_iff.1 hprepare
    exact (Prod.mk.inj (Except.ok.inj hpair)).1.symm
  subst hsame
  have hasks : asksForAreas query = true := by
    rw [asksForAreas, hread]
    simp only [harea.namedAreas_eq, List.isEmpty_cons, Bool.not_false]
  rw [exitCode_run_translate_eq_zero_iff hprepare hasks hversion hlookup,
    exists_compile_eq_ok_iff_mem_names hread harea]

/-- A machine with a sea whose name has blanks around its words, where a query for the sea comes
in. There are no other areas. -/
def shoreMachine : World Id where
  files := ⟨fun _ => false, fun path => .ok <|
    if path = ⟨"vds.toml"⟩ then []
    else if path = ⟨"regions/50m-marine-regions-v4.1.0.geojson"⟩ then
      ("\x7b\"features\":[\x7b\"geometry\":\x7b\"type\":\"MultiPolygon\",\"coordinates\":[]\x7d," ++
        "\"properties\":\x7b\"name\":\" north\\n\\tSEA \"\x7d\x7d]\x7d").toUTF8.toList
    else "\x7b\"features\":[]\x7d".toUTF8.toList⟩
  home := none
  workingDirectory := .ok ⟨"/"⟩
  standardInput :=
    .ok "\x7b\"filters\":\x7b\"geo_named_area\":\x7b\"marine\":\"North Sea\"\x7d\x7d\x7d"

/-- The area that a query asks for, if it asks for one by its filter alone. -/
def onlyArea? (query : Value) : Option NamedArea :=
  match Document.ofValue query with
  | .ok ⟨_, some (.term (.namedArea area))⟩ => some area
  | _ => none

theorem exists_asksForArea_of_onlyArea? {query : Value} {category : Category} {name : String}
    (h : onlyArea? query = some ⟨category.name, name⟩) :
    ∃ document, Document.ofValue query = .ok document ∧ AsksForArea category name document := by
  unfold onlyArea? at h
  split at h
  · rename_i hread
    obtain rfl := Option.some.inj h
    exact ⟨_, hread, rfl⟩
  · cases h

/-- The sea is listed under the name by which it is found. -/
theorem shoreMachine_listed_iff_compiled :
    let reefs := Query.reefLookup
    let file : Option Path := some ⟨"vds.toml"⟩
    (∃ document, Document.ofValue (areaQuery .marine "Atlantis") = .ok document ∧
      AsksForArea .marine "Atlantis" document ∧
      ("Atlantis" ∈ reefs.names .marine ↔ ∃ clause,
        (Schema.first ⟨reefs, .standard⟩).compile (areaQuery .marine "Atlantis") = .ok clause)) ∧
    (reefs.ReadFrom Query.reefTexts ∧
      Lists (reefs.names .marine) (regionsText reefs (some .marine) false)) ∧
    Id.run (run shoreMachine ⟨file, none, .regions (some .marine) false⟩) =
        ⟨0, "North Sea\n", ""⟩ ∧
      ∃ effective query document names,
        Id.run (prepare shoreMachine file none).run = .ok (effective, query) ∧
        VersionKnown effective none ∧ Document.ofValue query = .ok document ∧
        AsksForArea .marine "North Sea" document ∧ Lists names "North Sea\n" ∧
        "North Sea" ∈ names ∧
        (Id.run (run shoreMachine ⟨file, none, .translate none .compact⟩)).exitCode = 0 := by
  intro reefs file
  obtain ⟨_, atlantis, hatlantis, hasksAtlantis⟩ := listed_iff_compiled.1 .marine "Atlantis"
  have hlisting : Id.run (run shoreMachine ⟨file, none, .regions (some .marine) false⟩) =
      ⟨0, "North Sea\n", ""⟩ := by
    decide +kernel
  have hprepare : (Id.run (prepare shoreMachine file none).run).toOption.map
      (fun prepared => (prepared.1.defaultVersion, onlyArea? prepared.2)) =
        some (none, some ⟨"marine", "North Sea"⟩) := by
    decide +kernel
  obtain ⟨names, hnames, hcompiled⟩ :=
    listed_iff_compiled.2.2.2 shoreMachine file none .marine "North Sea\n" hlisting
  -- The lines say what the names are.
  have hname : "North Sea" ∈ names := by
    have hline : "North Sea".toList ∈ names.map String.toList ++ [[]] :=
      hnames.lines ▸ (by decide)
    rcases List.mem_append.1 hline with hline | hline
    · obtain ⟨name, hname, heq⟩ := List.mem_map.1 hline
      exact String.toList_inj.1 heq ▸ hname
    · exact absurd hline (by decide)
  refine ⟨⟨atlantis, hatlantis, hasksAtlantis, listed_iff_compiled.2.1 reefs .standard .marine
      "Atlantis" _ atlantis hatlantis hasksAtlantis⟩,
    ⟨Query.readFrom_reefTexts, listed_iff_compiled.2.2.1 reefs Query.reefTexts .marine
      Query.readFrom_reefTexts⟩, hlisting, ?_⟩
  cases hpair : Id.run (prepare shoreMachine file none).run with
  | error failure =>
    rw [hpair] at hprepare
    cases hprepare
  | ok prepared =>
    obtain ⟨effective, query⟩ := prepared
    rw [hpair] at hprepare
    obtain ⟨hnone, harea⟩ := Prod.mk.inj (Option.some.inj hprepare)
    obtain ⟨document, hread, hasks⟩ := @exists_asksForArea_of_onlyArea? _ .marine _ harea
    have hversion : VersionKnown effective none := by
      rw [VersionKnown, Option.none_or, hnone]
      exact fun asked h => by cases h
    exact ⟨effective, query, document, names, rfl, hversion, hread, hasks, hnames, hname,
      (hcompiled none .compact effective query document "North Sea" hpair hversion hread hasks).1
        hname⟩

end Command

end RecordQuery
