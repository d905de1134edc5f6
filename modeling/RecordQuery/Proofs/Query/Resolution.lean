import RecordQuery.Proofs.Outcome
import RecordQuery.Proofs.Query.Members

/-!
# Looking up the areas a query names

Compiling looks areas up on the way and stops at the first that nobody knows. Main statements:
what compiling fails with is told by the list of named areas alone, and two lookups that agree on
these areas compile a query to the same.
-/

namespace RecordQuery.Query

open Region (Lookup)

/-- What is said of an area that is not there. -/
def NamedArea.unknown (area : NamedArea) : Error := .unknownRegion area.category area.name

/-- The lookups give the same for these areas. -/
def AgreeOn (areas : List NamedArea) (lookup other : Lookup) : Prop :=
  ∀ area ∈ areas, lookup.get? area.category area.name = other.get? area.category area.name

namespace Compiler

/-- Whether the area of this name is there to be looked up. -/
def Knows (compiler : Compiler) (area : NamedArea) : Prop :=
  ∃ found, compiler.lookup.get? area.category area.name = some found

/-- The first of some areas that is not there to be looked up. -/
def firstUnknown? (compiler : Compiler) (areas : List NamedArea) : Option NamedArea :=
  areas.find? fun area => (compiler.lookup.get? area.category area.name).isNone

theorem firstUnknown?_append (compiler : Compiler) (areas others : List NamedArea) :
    compiler.firstUnknown? (areas ++ others) =
      (compiler.firstUnknown? areas).or (compiler.firstUnknown? others) :=
  List.find?_append

theorem isNone_get?_eq_true_iff {compiler : Compiler} {area : NamedArea} :
    (compiler.lookup.get? area.category area.name).isNone = true ↔ ¬ compiler.Knows area := by
  rw [Knows, ← Option.isSome_iff_exists, Bool.not_eq_true, Option.isSome_eq_false_iff]

theorem firstUnknown?_eq_some_iff {compiler : Compiler} {areas : List NamedArea}
    {area : NamedArea} :
    compiler.firstUnknown? areas = some area ↔
      ¬ compiler.Knows area ∧ ∃ before after, areas = before ++ area :: after ∧
        ∀ other ∈ before, compiler.Knows other := by
  rw [firstUnknown?, List.find?_eq_some_iff_append, isNone_get?_eq_true_iff]
  simp only [Bool.not_eq_true', ← Bool.not_eq_true, isNone_get?_eq_true_iff, not_not]

theorem firstUnknown?_eq_none_iff {compiler : Compiler} {areas : List NamedArea} :
    compiler.firstUnknown? areas = none ↔ ∀ area ∈ areas, compiler.Knows area := by
  rw [firstUnknown?, List.find?_eq_none]
  simp only [isNone_get?_eq_true_iff, not_not]

theorem failure?_resolve (compiler : Compiler) (area : NamedArea) :
    failure? (compiler.resolve area) = (compiler.firstUnknown? [area]).map NamedArea.unknown := by
  rw [resolve, firstUnknown?, List.find?_singleton]
  cases compiler.lookup.get? area.category area.name with
  | none => rfl
  | some found => rfl

-- Of all terms only a named area can fail.
theorem failure?_term (compiler : Compiler) (leaf : Term) :
    failure? (compiler.term leaf) =
      (compiler.firstUnknown? (Filter.namedAreas (.term leaf))).map NamedArea.unknown := by
  cases leaf with
  | namedArea area =>
    rw [term, failure?_map, failure?_resolve]
    rfl
  | stringContains fields value => cases fields <;> rfl
  | presence fields ofGeo => cases ofGeo <;> rfl
  | stringEquals | numberEquals | numberRange | nearPoint | customArea => rfl

-- A list of members fails with what the first of them fails with that does.
theorem failure?_filters_cons (compiler : Compiler) (member : Filter) (rest : List Filter) :
    failure? (compiler.filters (member :: rest)) =
      (failure? (compiler.filter member)).or (failure? (compiler.filters rest)) := by
  rw [filters]
  cases compiler.filter member with
  | error error => rfl
  | ok clause =>
    cases compiler.filters rest with
    | error error => rfl
    | ok clauses => rfl

theorem failure?_filter_group (compiler : Compiler) (connective : Connective)
    (members : List Filter) :
    failure? (compiler.filter (.group connective members)) =
      failure? (compiler.filters members) := by
  rw [filter]
  cases compiler.filters members with
  | error error => rfl
  | ok clauses => rfl

/-- A filter fails with the first area it names that nobody knows, and with nothing else. -/
theorem failure?_filter (compiler : Compiler) (filter : Filter) :
    failure? (compiler.filter filter) =
      (compiler.firstUnknown? filter.namedAreas).map NamedArea.unknown := by
  induction filter with
  | group connective members ih =>
    rw [failure?_filter_group, Filter.namedAreas, Filter.namedAreasOfMembers_eq_flatMap]
    -- Member by member, the areas looked up are those that are listed.
    induction members with
    | nil => rfl
    | cons member rest ihrest =>
      obtain ⟨ihmember, ihmembers⟩ := List.forall_mem_cons.1 ih
      rw [failure?_filters_cons, ihmember, ihrest ihmembers, List.flatMap_cons,
        firstUnknown?_append, Option.map_or]
  | term leaf =>
    rw [Compiler.filter]
    exact failure?_term compiler leaf

/-- Filters are refused for the areas they name, and for nothing else. -/
theorem exists_filter_eq_ok_iff {compiler : Compiler} {filter : Filter} :
    (∃ clause, compiler.filter filter = .ok clause) ↔
      ∀ area ∈ filter.namedAreas, compiler.Knows area := by
  rw [← failure?_eq_none_iff, failure?_filter, Option.map_eq_none_iff, firstUnknown?_eq_none_iff]

-- What to search for is put in front of the filter, and only the filter can fail.
theorem document_some (compiler : Compiler) (search : Option String) (tree : Filter) :
    compiler.document ⟨search, some tree⟩ = (compiler.filter tree).map fun clause =>
      Clause.allOf ((search.map compiler.anywhere).toList ++ [clause]) := by
  unfold document
  cases hfilter : compiler.filter tree with
  | error error => simp [hfilter, bind, Except.bind, Except.map]
  | ok clause => simp [hfilter, bind, Except.bind, pure, Except.pure, Except.map]

theorem failure?_document (compiler : Compiler) (document : Document) :
    failure? (compiler.document document) =
      (compiler.firstUnknown? document.namedAreas).map NamedArea.unknown := by
  obtain ⟨search, tree⟩ := document
  cases tree with
  | none => rfl
  | some tree =>
    rw [document_some, failure?_map]
    exact failure?_filter compiler tree

-- What is compiled names known areas only.
theorem knows_of_document_eq_ok {compiler : Compiler} {document : Document} {clause : Clause}
    (h : compiler.document document = .ok clause) :
    ∀ area ∈ document.namedAreas, compiler.Knows area := by
  have hfailure := failure?_document compiler document
  rw [h, failure?_ok, eq_comm, Option.map_eq_none_iff] at hfailure
  exact firstUnknown?_eq_none_iff.1 hfailure

-- Looking up one area after the other fails where compiling does.
theorem failure?_forM_resolve (compiler : Compiler) (areas : List NamedArea) :
    failure? (areas.forM fun area => discard (compiler.resolve area)) =
      (compiler.firstUnknown? areas).map NamedArea.unknown := by
  induction areas with
  | nil => rfl
  | cons area rest ih =>
    have hfirst : failure? (discard (compiler.resolve area)) =
        (compiler.firstUnknown? [area]).map NamedArea.unknown := by
      rw [← failure?_resolve]
      exact failure?_map _ (compiler.resolve area)
    have hstep : ((area :: rest).forM fun area => discard (compiler.resolve area)) =
        (discard (compiler.resolve area) >>= fun _ =>
          rest.forM fun area => discard (compiler.resolve area)) := rfl
    rw [hstep, failure?_bind fun _ _ => ih, hfirst, ← Option.map_or, ← firstUnknown?_append,
      List.singleton_append]

/-! ## Two lookups -/

section Congruence

variable {lookup other : Lookup} {names : FieldNames}

theorem term_congr {leaf : Term} (h : AgreeOn (Filter.namedAreas (.term leaf)) lookup other) :
    term ⟨lookup, names⟩ leaf = term ⟨other, names⟩ leaf := by
  cases leaf with
  | namedArea area =>
    have harea : lookup.get? area.category area.name = other.get? area.category area.name :=
      h area List.mem_cons_self
    rw [term, term, resolve, resolve, harea]
  | stringContains fields value => cases fields <;> rfl
  | presence fields ofGeo => cases ofGeo <;> rfl
  | stringEquals | numberEquals | numberRange | nearPoint | customArea => rfl

theorem filter_congr {tree : Filter} (h : AgreeOn tree.namedAreas lookup other) :
    filter ⟨lookup, names⟩ tree = filter ⟨other, names⟩ tree := by
  induction tree with
  | group connective members ih =>
    have hmembers : filters ⟨lookup, names⟩ members = filters ⟨other, names⟩ members := by
      rw [Filter.namedAreas, Filter.namedAreasOfMembers_eq_flatMap] at h
      -- Each member names a part of the areas of the group.
      induction members with
      | nil => rfl
      | cons member rest ihrest =>
        obtain ⟨ihmember, ihmembers⟩ := List.forall_mem_cons.1 ih
        rw [List.flatMap_cons] at h
        obtain ⟨hmember, hrest⟩ := List.forall_mem_append.1 h
        rw [filters, filters, ihmember hmember, ihrest ihmembers hrest]
    rw [filter, filter, hmembers]
  | term leaf =>
    rw [filter, filter]
    exact term_congr h

theorem document_congr {d : Document} (h : AgreeOn d.namedAreas lookup other) :
    document ⟨lookup, names⟩ d = document ⟨other, names⟩ d := by
  obtain ⟨search, tree⟩ := d
  cases tree with
  | none => rfl
  | some tree =>
    have htree : filter ⟨lookup, names⟩ tree = filter ⟨other, names⟩ tree := filter_congr h
    rw [document_some, document_some, htree]
    rfl

end Congruence

end Compiler

end RecordQuery.Query
