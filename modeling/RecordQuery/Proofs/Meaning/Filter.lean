import RecordQuery.Proofs.Meaning.Record
import RecordQuery.Proofs.Query.Members

/-!
# What queries say of records

The meaning of documents, filters and terms, given without the clauses they are compiled to. Main
statement: what a document is compiled to holds of a record if and only if the document does.
-/

namespace RecordQuery.Query

open Json (Number)

namespace NumberRange

/-- A number stored in the field is on the right side of each bound that is there. -/
def holds (record : Record) (stored : String) (range : NumberRange) : Bool :=
  range.upper.all
      (if range.upperIncluded then record.atMost stored else record.below stored) &&
    range.lower.all
      (if range.lowerIncluded then record.atLeast stored else record.above stored)

end NumberRange

namespace Term

/-- A term that names fields holds if its condition is met in any of them. -/
def holds (compiler : Compiler) (record : Record) : Term → Bool
  | .stringEquals fields value =>
    fields.any fun field => record.term (compiler.names.qualified field) (.text value)
  | .stringContains fields value =>
    if fields.isEmpty then record.text compiler.names.allText value
    else fields.any fun field => record.text (compiler.names.subfield field "full") value
  | .numberEquals fields value =>
    fields.any fun field => record.term (compiler.names.subfield field "number") (.number value)
  | .numberRange range =>
    range.fields.any fun field => range.holds record (compiler.names.subfield field "number")
  | .presence fields ofGeo =>
    if ofGeo then record.present compiler.names.geo
    else fields.any fun field => record.present (compiler.names.qualified field)
  | .nearPoint near =>
    record.near compiler.names.geo near.latitude near.longitude near.radius near.unit
  | .namedArea area =>
    (compiler.lookup.get? area.category area.name).any (record.inArea compiler.names.geo)
  | .customArea custom => record.inArea compiler.names.geo custom.area

end Term

namespace Filter

mutual

/-- All members of a group hold, or any of them, or none. -/
def holds (compiler : Compiler) (record : Record) : Filter → Bool
  | .group .all members => (truths compiler record members).all id
  | .group .any members => (truths compiler record members).any id
  | .group .none members => !(truths compiler record members).any id
  | .term leaf => leaf.holds compiler record

def truths (compiler : Compiler) (record : Record) : List Filter → List Bool
  | [] => []
  | member :: rest => holds compiler record member :: truths compiler record rest

end

theorem truths_eq_map (compiler : Compiler) (record : Record) (members : List Filter) :
    truths compiler record members = members.map (holds compiler record) :=
  eq_map_of_cons rfl (fun _ _ => rfl) members

end Filter

namespace Document

/-- Search and filter hold both; what is not there holds. -/
def holds (compiler : Compiler) (record : Record) (document : Document) : Bool :=
  document.search.all (record.text compiler.names.allText) &&
    document.filter.all (Filter.holds compiler record)

end Document

section Compiled

variable {compiler : Compiler} (record : Record)

theorem holds_anyField (fields : List String) (clause : String → Clause) :
    (anyField fields clause).holds record = fields.any fun field =>
      (clause field).holds record := by
  rw [anyField, Clause.holds_anyOf, List.any_map]
  rfl

-- Of the four bounds only those on the side they are given for are there.
theorem NumberRange.inBounds_bounds (stored : String) (range : NumberRange) :
    record.inBounds stored range.bounds = range.holds record stored := by
  unfold Record.inBounds NumberRange.holds NumberRange.bounds
  cases range.upperIncluded <;> cases range.lowerIncluded <;> simp

theorem Term.holds_of_compiled {leaf : Term} {clause : Clause}
    (h : compiler.term leaf = .ok clause) : clause.holds record = leaf.holds compiler record := by
  -- Only named areas can fail to compile; every other term gives its clause at once.
  cases leaf with
  | stringEquals fields value =>
    obtain rfl := Except.ok.inj h
    rw [holds_anyField]
    rfl
  | stringContains fields value =>
    cases fields with
    | nil =>
      obtain rfl := Except.ok.inj h
      rfl
    | cons field fields =>
      obtain rfl := Except.ok.inj h
      rw [holds_anyField]
      rfl
  | numberEquals fields value =>
    obtain rfl := Except.ok.inj h
    rw [holds_anyField]
    rfl
  | numberRange range =>
    obtain rfl := Except.ok.inj h
    rw [holds_anyField]
    simp only [Clause.holds, NumberRange.inBounds_bounds]
    rfl
  | presence fields ofGeo =>
    cases ofGeo with
    | true =>
      obtain rfl := Except.ok.inj h
      rfl
    | false =>
      obtain rfl := Except.ok.inj h
      rw [holds_anyField]
      rfl
  | nearPoint near =>
    obtain rfl := Except.ok.inj h
    rfl
  | namedArea area =>
    rw [Compiler.term, Compiler.resolve] at h
    rw [Term.holds]
    cases hfound : compiler.lookup.get? area.category area.name with
    | none =>
      rw [hfound] at h
      exact absurd h (by simp [Except.map])
    | some found =>
      rw [hfound] at h
      obtain rfl := Except.ok.inj h
      rw [Clause.holds_ofArea, Option.any_some]
  | customArea custom =>
    obtain rfl := Except.ok.inj h
    rw [Clause.holds_ofArea]
    rfl

-- Groups of clauses mean what the group does, if the members do.
theorem holds_group {connective : Connective} {members : List Filter} {clauses : List Clause}
    (h : clauses.map (Clause.holds record) = members.map (Filter.holds compiler record)) :
    (Compiler.group clauses connective).holds record =
      Filter.holds compiler record (.group connective members) := by
  -- The three connectives look at the truths of the members and at nothing else.
  have hany : clauses.any (Clause.holds record) =
      (members.map (Filter.holds compiler record)).any id := by
    rw [← h, List.any_map]
    rfl
  have hall : clauses.all (Clause.holds record) =
      (members.map (Filter.holds compiler record)).all id := by
    rw [← h, List.all_map]
    rfl
  cases connective with
  | all => rw [Compiler.group, Clause.holds_allOf, hall, Filter.holds, Filter.truths_eq_map]
  | any => rw [Compiler.group, Clause.holds_anyOf, hany, Filter.holds, Filter.truths_eq_map]
  | none => rw [Compiler.group, Clause.holds_none, hany, Filter.holds, Filter.truths_eq_map]

theorem Filter.holds_of_compiled {filter : Filter} {clause : Clause}
    (h : compiler.filter filter = .ok clause) :
    clause.holds record = filter.holds compiler record := by
  induction filter generalizing clause with
  | group connective members ih =>
    obtain ⟨clauses, hclauses, rfl⟩ := Compiler.filter_group_eq_ok_iff.1 h
    apply holds_group
    -- Member by member, what the clause says is what the member says.
    clear h
    induction hclauses with
    | nil => rfl
    | @cons member clause members clauses hmember _ ihrest =>
      obtain ⟨ihmember, ihmembers⟩ := List.forall_mem_cons.1 ih
      rw [List.map_cons, List.map_cons, ihmember hmember, ihrest ihmembers]
  | term leaf =>
    rw [Compiler.filter] at h
    rw [Filter.holds]
    exact Term.holds_of_compiled record h

-- A text to search for and a filter are joined, one of them stands alone, and without both
-- everything is found.
theorem Compiler.document_eq_ok_iff {document : Document} {clause : Clause} :
    compiler.document document = .ok clause ↔
      match document.search, document.filter with
      | none, none => clause = .everything
      | some text, none => clause = compiler.anywhere text
      | none, some filter => compiler.filter filter = .ok clause
      | some text, some filter => ∃ found, compiler.filter filter = .ok found ∧
          clause = .all [compiler.anywhere text, found] [] := by
  obtain ⟨search, filter⟩ := document
  cases filter with
  | none =>
    cases search with
    | none => exact ⟨fun h => (Except.ok.inj h).symm, fun h => congrArg Except.ok h.symm⟩
    | some text => exact ⟨fun h => (Except.ok.inj h).symm, fun h => congrArg Except.ok h.symm⟩
  | some filter =>
    unfold Compiler.document
    cases hfilter : compiler.filter filter with
    | error error =>
      cases search <;> simp [hfilter, bind, Except.bind]
    | ok found =>
      cases search with
      | none => simp [hfilter, bind, Except.bind, pure, Except.pure, Clause.allOf]
      | some text =>
        simp [hfilter, bind, Except.bind, pure, Except.pure, Clause.allOf, eq_comm]

/-- What a document is compiled to holds of exactly the records of which the document does. -/
theorem Compiler.document_preserves_meaning {document : Document} {clause : Clause}
    (h : compiler.document document = .ok clause) :
    clause.holds record = document.holds compiler record := by
  -- What is not there is no condition, neither on the document nor on the clause.
  obtain ⟨search, filter⟩ := document
  rw [Compiler.document_eq_ok_iff] at h
  cases search with
  | none =>
    cases filter with
    | none =>
      obtain rfl := h
      rfl
    | some filter =>
      rw [Filter.holds_of_compiled record h]
      rfl
  | some text =>
    cases filter with
    | none =>
      obtain rfl := h
      rw [Document.holds, Option.all_some, Option.all_none, Bool.and_true]
      rfl
    | some filter =>
      obtain ⟨found, hfound, rfl⟩ := h
      rw [Clause.holds_all, List.all_cons, List.all_cons, List.all_nil, List.any_nil,
        Filter.holds_of_compiled record hfound, Bool.and_true, Bool.not_false, Bool.and_true]
      rfl

end Compiled

/-- One known area, a lagoon around an island. -/
def lagoon : Polygon :=
  ⟨[⟨.zero false, .zero false⟩, ⟨.zero true, .zero false⟩], [[⟨.zero false, .zero true⟩]]⟩

def lagoonCompiler : Compiler :=
  ⟨Region.Lookup.empty.insert .marine (Region.RegionSet.empty.add "Lagoon" [lagoon]), .standard⟩

/-- Corals of two ranks found in the lagoon up to year zero, but none that were lost. -/
def lagoonCorals : Document where
  search := some "coral"
  filter := some <| .group .all
    [.term (.stringEquals ["genus", "family"] "Acropora"),
      .term (.numberRange ⟨["year"], some .zero, true, none, true⟩),
      .term (.namedArea ⟨"marine", "Lagoon"⟩),
      .group .none [.term (.presence ["lost"] false)]]

def lagoonClause : Clause :=
  .all
    [.text "meta.all" "coral",
      .all
        [.any [.term "data.genus" (.text "Acropora"), .term "data.family" (.text "Acropora")] 1,
          .range "data.year.number" ⟨none, some .zero, none, none⟩,
          .all [.within "meta.geo" lagoon.outer] [.within "meta.geo" [⟨.zero false, .zero true⟩]],
          .none [.present "data.lost"]]
        []]
    []

/-- A record of the family, in the lagoon and not on the island. -/
def lagoonRecord : Record where
  text field words := field == "meta.all" && words == "coral"
  term field _ := field == "data.family"
  present _ := false
  below _ _ := false
  atMost field _ := field == "data.year.number"
  above _ _ := false
  atLeast _ _ := false
  near _ _ _ _ _ := false
  within _ ring := ring == lagoon.outer

theorem lagoonCorals_preserves_meaning :
    lagoonCompiler.document lagoonCorals = .ok lagoonClause ∧
      lagoonClause.holds lagoonRecord = lagoonCorals.holds lagoonCompiler lagoonRecord ∧
      lagoonClause.holds lagoonRecord = true :=
  ⟨rfl, Compiler.document_preserves_meaning lagoonRecord rfl, by decide⟩

end RecordQuery.Query
