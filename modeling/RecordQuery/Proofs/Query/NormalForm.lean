import RecordQuery.Proofs.Clause.NormalForm
import RecordQuery.Proofs.Meaning.Filter
import RecordQuery.Proofs.Query.Resolution
import RecordQuery.Proofs.Query.WellFormed
import RecordQuery.Proofs.Region.Loading

/-!
# Normal form of compiled queries

What reading guards against keeps compiled queries in normal form: groups without members, terms
without fields, areas without polygons. Only the last can get in another way, through a boundary
set. Main statement: a query is compiled to normal form just when each area it names is drawn in
the boundary set of its category by a feature that has a polygon.
-/

namespace RecordQuery.Query

open Json (Value)
open Region (BoundaryText Category Lookup Outlined Source)

/-- The area is known, and it has a polygon. -/
def Compiler.Encloses (compiler : Compiler) (area : NamedArea) : Prop :=
  ∃ found, compiler.lookup.get? area.category area.name = some found ∧ found.polygons ≠ []

namespace Compiler

section Compiled

variable {compiler : Compiler}

theorem normal_anyField {fields : List String} (h : fields ≠ []) {clause : String → Clause}
    (hclause : ∀ field, (clause field).Normal) : (anyField fields clause).Normal := by
  rw [anyField, Clause.normal_anyOf_iff]
  refine ⟨List.map_eq_nil_iff.not.2 h, fun other hother => ?_⟩
  obtain ⟨field, _, rfl⟩ := List.mem_map.1 hother
  exact hclause field

theorem normal_group_iff {clauses : List Clause} {connective : Connective} :
    (group clauses connective).Normal ↔ clauses ≠ [] ∧ ∀ clause ∈ clauses, clause.Normal := by
  cases connective with
  | all => exact Clause.normal_allOf_iff
  | any => exact Clause.normal_anyOf_iff
  | none => exact Clause.normal_none_iff

-- Coordinates draw as many polygons as there are.
theorem polygons_ne_nil_of_wellFormed {custom : CustomArea} (h : custom.WellFormed) :
    custom.area.polygons ≠ [] := by
  have hlength : custom.coordinates.length = custom.area.polygons.length := h.draws.length_eq
  rw [← List.length_pos_iff, ← hlength, List.length_pos_iff]
  exact h.ne_nil

-- Where no area is named there is nothing to enclose.
theorem normal_iff_of_nil {clause : Clause} (h : clause.Normal) :
    clause.Normal ↔ ∀ area ∈ ([] : List NamedArea), compiler.Encloses area :=
  iff_of_true h fun _ harea => absurd harea List.not_mem_nil

theorem normal_term_iff {leaf : Term} {clause : Clause} (hleaf : leaf.WellFormed)
    (h : compiler.term leaf = .ok clause) :
    clause.Normal ↔ ∀ area ∈ Filter.namedAreas (.term leaf), compiler.Encloses area := by
  cases leaf with
  | stringEquals fields value =>
    obtain rfl := Except.ok.inj h
    exact normal_iff_of_nil (normal_anyField hleaf fun _ => .term _ _)
  | stringContains fields value =>
    cases fields with
    | nil =>
      obtain rfl := Except.ok.inj h
      exact normal_iff_of_nil (.text _ _)
    | cons field fields =>
      obtain rfl := Except.ok.inj h
      exact normal_iff_of_nil (normal_anyField (List.cons_ne_nil field fields) fun _ => .text _ _)
  | numberEquals fields value =>
    obtain rfl := Except.ok.inj h
    exact normal_iff_of_nil (normal_anyField hleaf fun _ => .term _ _)
  | numberRange range =>
    obtain rfl := Except.ok.inj h
    exact normal_iff_of_nil (normal_anyField hleaf fun _ => .range _ _)
  | presence fields ofGeo =>
    cases ofGeo with
    | true =>
      obtain rfl := Except.ok.inj h
      exact normal_iff_of_nil (.present _)
    | false =>
      obtain rfl := Except.ok.inj h
      have hfields : fields ≠ [] := hleaf.resolve_left Bool.false_ne_true
      exact normal_iff_of_nil (normal_anyField hfields fun _ => .present _)
  | nearPoint near =>
    obtain rfl := Except.ok.inj h
    exact normal_iff_of_nil (.near _ _ _ _ _)
  | customArea custom =>
    obtain rfl := Except.ok.inj h
    exact normal_iff_of_nil (Clause.normal_ofArea_iff.2 (polygons_ne_nil_of_wellFormed hleaf))
  | namedArea area =>
    have hareas : Filter.namedAreas (.term (.namedArea area)) = [area] := rfl
    have hfilter : compiler.filter (.term (.namedArea area)) = .ok clause := by
      rw [filter]
      exact h
    obtain ⟨found, hfound⟩ := exists_filter_eq_ok_iff.1 ⟨clause, hfilter⟩ area List.mem_cons_self
    rw [term, resolve, hfound] at h
    obtain rfl := Except.ok.inj h
    rw [hareas, List.forall_mem_singleton, Encloses, hfound]
    simp only [Option.some.injEq, exists_eq_left', Clause.normal_ofArea_iff]

/-- A filter that was read is compiled to normal form just when the areas it names are
enclosed. -/
theorem normal_filter_iff {f : Filter} {clause : Clause} (hfilter : f.WellFormed)
    (h : compiler.filter f = .ok clause) :
    clause.Normal ↔ ∀ area ∈ f.namedAreas, compiler.Encloses area := by
  induction f generalizing clause with
  | group connective members ih =>
    obtain ⟨clauses, hclauses, rfl⟩ := filter_group_eq_ok_iff.1 h
    obtain ⟨hne, hmembers⟩ : members ≠ [] ∧ ∀ member ∈ members, member.WellFormed := by
      cases hfilter with
      | group _ hne hmembers => exact ⟨hne, hmembers⟩
    have hclausesNe : clauses ≠ [] := by
      rw [← List.length_pos_iff, ← hclauses.length_eq, List.length_pos_iff]
      exact hne
    rw [normal_group_iff, and_iff_right hclausesNe]
    -- Clauses and members correspond, so what holds of all of the ones holds of all of the others.
    constructor
    · intro hnormal area harea
      obtain ⟨member, hmember, harea⟩ := Filter.mem_namedAreas_group.1 harea
      obtain ⟨other, hother, hcompiled⟩ := exists_of_forall₂_of_mem hclauses.flip hmember
      exact (ih member hmember (hmembers member hmember) hcompiled).1 (hnormal other hother) area
        harea
    · intro hencloses other hother
      obtain ⟨member, hmember, hcompiled⟩ := exists_of_forall₂_of_mem hclauses hother
      refine (ih member hmember (hmembers member hmember) hcompiled).2 fun area harea => ?_
      exact hencloses area (Filter.mem_namedAreas_group.2 ⟨member, hmember, harea⟩)
  | term leaf =>
    cases hfilter with
    | term hleaf =>
      rw [filter] at h
      exact normal_term_iff hleaf h

end Compiled

end Compiler

/-- A clause that a document may be compiled to: one that always holds if the document asks for
nothing, else one in normal form. -/
def Document.Normal (document : Document) (clause : Clause) : Prop :=
  document.search = none ∧ document.filter = none ∧ clause = .everything ∨ clause.Normal

namespace Document

theorem normal_iff {compiler : Compiler} {document : Document} {clause : Clause}
    (hdocument : document.WellFormed) (h : compiler.document document = .ok clause) :
    document.Normal clause ↔ ∀ area ∈ document.namedAreas, compiler.Encloses area := by
  obtain ⟨search, tree⟩ := document
  cases tree with
  | none =>
    refine iff_of_true ?_ fun _ harea => absurd harea List.not_mem_nil
    cases search with
    | none => exact .inl ⟨rfl, rfl, Compiler.document_eq_ok_iff.1 h⟩
    | some text =>
      obtain rfl : clause = compiler.anywhere text := Compiler.document_eq_ok_iff.1 h
      exact .inr (.text _ _)
  | some tree =>
    have htree : tree.WellFormed := hdocument tree rfl
    -- A filter there is, so the first way to be normal is out.
    have hnormal : Normal ⟨search, some tree⟩ clause ↔ clause.Normal :=
      or_iff_right fun hempty => nomatch hempty.2.1
    rw [hnormal]
    cases search with
    | none =>
      have hfilter : compiler.filter tree = .ok clause := Compiler.document_eq_ok_iff.1 h
      exact Compiler.normal_filter_iff htree hfilter
    | some text =>
      obtain ⟨found, hfilter, rfl⟩ := Compiler.document_eq_ok_iff.1 h
      have hsearch : (compiler.anywhere text).Normal := .text _ _
      have htwo : 2 ≤ [compiler.anywhere text, found].length := Nat.le_refl 2
      rw [Clause.normal_all_iff, List.forall_mem_cons, List.forall_mem_singleton,
        and_iff_right htwo, and_iff_right hsearch]
      exact Compiler.normal_filter_iff htree hfilter

end Document

/-- A query over boundary sets that were read from texts is compiled to normal form just when the
areas it names are outlined there. -/
theorem compiled_normal_iff_outlined {texts : Category → Option BoundaryText} {lookup : Lookup}
    (names : FieldNames) {query : Value} {document : Document} {clause : Clause}
    (hlookup : lookup.ReadFrom texts) (hread : Document.ofValue query = .ok document)
    (hclause : Compiler.document ⟨lookup, names⟩ document = .ok clause) :
    document.Normal clause ↔
      ∀ area ∈ document.namedAreas, Outlined texts area.category area.name := by
  rw [Document.normal_iff (Document.wellFormed_of_ofValue hread) hclause]
  -- The query was compiled, so each area it names is known.
  refine forall₂_congr fun area harea => ?_
  obtain ⟨found, hfound⟩ := Compiler.knows_of_document_eq_ok hclause area harea
  rw [← hlookup.polygons_ne_nil_iff hfound, Compiler.Encloses, hfound]
  simp only [Option.some.injEq, exists_eq_left']

/-- A boundary set of a lagoon around an island, and of an area that was left without polygons. -/
def reefText : BoundaryText where
  origin := "inline"
  bytes := ("\x7b\"features\":[\x7b\"geometry\":\x7b\"type\":\"Polygon\",\"coordinates\":" ++
    "[[[0,0],[1,0]],[[0,1]]]\x7d,\"properties\":\x7b\"name\":\"lagoon\"\x7d\x7d," ++
    "\x7b\"geometry\":\x7b\"type\":\"MultiPolygon\",\"coordinates\":[]\x7d," ++
    "\"properties\":\x7b\"name\":\"void\"\x7d\x7d]\x7d").toUTF8.toList
  nameKeys := ["name"]

def reef : Polygon :=
  let zero := Json.Number.zero.toBinary
  let one := (Json.Number.integer 1 (by decide)).toBinary
  ⟨[⟨zero, zero⟩, ⟨one, zero⟩], [[⟨zero, one⟩]]⟩

def reefSet : Region.RegionSet := (Region.RegionSet.empty.add "Lagoon" [reef]).add "Void" []

theorem areas_reefText :
    (match Region.RegionSet.parse reefText.bytes reefText.origin reefText.nameKeys with
      | .ok set => decide (set.areas = reefSet.areas)
      | .error _ => false) = true := by
  decide +kernel

theorem parse_reefText :
    Region.RegionSet.parse reefText.bytes reefText.origin reefText.nameKeys = .ok reefSet := by
  have hareas := areas_reefText
  split at hareas
  · rename_i set hset
    have hset' : set = reefSet := congrArg Region.RegionSet.mk (of_decide_eq_true hareas)
    rw [hset, hset']
  · exact nomatch hareas

def reefLookup : Lookup := Lookup.empty.insert .marine reefSet

def reefTexts : Category → Option BoundaryText :=
  Function.update (fun _ => none) .marine (some reefText)

theorem readFrom_reefTexts : reefLookup.ReadFrom reefTexts :=
  Lookup.readFrom_empty.insert .marine parse_reefText

/-- The records outside of a sea. -/
def outsideOf (sea : String) : Value :=
  .object [("filters", .object [("not", .array
    [.object [("geo_named_area", .object [("marine", .string sea)])]])])]

def outsideOfDocument (sea : String) : Document :=
  ⟨none, some (.group .none [.term (.namedArea ⟨"marine", sea⟩)])⟩

/-- A lagoon with an island is compiled to normal form. The boundary set can be loaded from a file,
and then it was read from the text of the file. -/
theorem lagoon_compiled_normal :
    let clause : Clause := .none [.all [.within "meta.geo" reef.outer]
      (reef.holes.map (.within "meta.geo"))]
    let files : Files Id := ⟨fun _ => true, fun _ => .ok reefText.bytes⟩
    let source : Source := ⟨.marine, ⟨"inline"⟩, ["name"]⟩
    (reefLookup.ReadFrom reefTexts ∧
      Document.ofValue (outsideOf "Lagoon") = .ok (outsideOfDocument "Lagoon") ∧
      Compiler.document ⟨reefLookup, .standard⟩ (outsideOfDocument "Lagoon") = .ok clause ∧
      (outsideOfDocument "Lagoon").Normal clause) ∧
    Id.run (Lookup.load files [source]) = .ok reefLookup ∧
      ∃ texts, reefLookup.ReadFrom texts ∧ ∀ category text, texts category = some text →
        text.StandsIn files [source] category := by
  intro clause files source
  have hread : Document.ofValue (outsideOf "Lagoon") = .ok (outsideOfDocument "Lagoon") := rfl
  have hclause : Compiler.document ⟨reefLookup, .standard⟩ (outsideOfDocument "Lagoon") =
      .ok clause := rfl
  have houtlined : Outlined reefTexts "marine" "Lagoon" := by
    refine ⟨.marine, reefText, rfl, rfl, ?_⟩
    rw [← Region.RegionSet.encloses_iff_of_parse parse_reefText]
    exact ⟨⟨[reef]⟩, rfl, List.cons_ne_nil reef []⟩
  have hareas : ∀ area ∈ (outsideOfDocument "Lagoon").namedAreas,
      Outlined reefTexts area.category area.name := List.forall_mem_singleton.2 houtlined
  have hload : Id.run (Lookup.load files [source]) = .ok reefLookup := by
    have hbytes : Id.run (files.read source.path) = .ok reefText.bytes := rfl
    have hset : Id.run (Region.RegionSet.load files source.path source.nameKeys) =
        .ok reefSet := (Region.RegionSet.run_load hbytes).trans parse_reefText
    rw [Lookup.load, Lookup.loadOnto_cons, hset]
    rfl
  exact ⟨⟨readFrom_reefTexts, hread, hclause,
    (compiled_normal_iff_outlined .standard readFrom_reefTexts hread hclause).2 hareas⟩, hload,
    Lookup.readFrom_of_load hload⟩

/-- An area without polygons gets into a boundary set, and from there into an empty list. -/
theorem void_not_compiled_normal :
    reefLookup.ReadFrom reefTexts ∧
      Document.ofValue (outsideOf "Void") = .ok (outsideOfDocument "Void") ∧
      Compiler.document ⟨reefLookup, .standard⟩ (outsideOfDocument "Void") =
        .ok (.none [.any [] 1]) ∧
      ¬ (outsideOfDocument "Void").Normal (.none [.any [] 1]) := by
  refine ⟨readFrom_reefTexts, rfl, rfl, ?_⟩
  rintro (⟨_, hfilter, _⟩ | hnormal)
  · exact nomatch hfilter
  · have hany := (Clause.normal_none_iff.1 hnormal).2 (.any [] 1) List.mem_cons_self
    exact absurd (Clause.normal_any_iff.1 hany).1 (by decide)

end RecordQuery.Query
