import RecordQuery.Clause
import RecordQuery.Query.Document
import RecordQuery.Region.Set

/-!
# Compiling queries

From documents to clauses. Names of fields become the names under which they are stored, and
named areas are looked up.
-/

namespace RecordQuery.Query

open Region (Lookup)

/-- What has to be known besides the query: the named areas and the names of fields. -/
structure Compiler where
  lookup : Lookup
  names : FieldNames

def anyField (fields : List String) (clause : String → Clause) : Clause :=
  Clause.anyOf (fields.map clause)

namespace NumberRange

def bounds (range : NumberRange) : Bounds where
  lt := if range.upperIncluded then none else range.upper
  lte := if range.upperIncluded then range.upper else none
  gt := if range.lowerIncluded then none else range.lower
  gte := if range.lowerIncluded then range.lower else none

end NumberRange

namespace Compiler

def anywhere (compiler : Compiler) (text : String) : Clause := .text compiler.names.allText text

def resolve (compiler : Compiler) (area : NamedArea) : Except Error Area :=
  match compiler.lookup.get? area.category area.name with
  | some found => .ok found
  | none => .error (.unknownRegion area.category area.name)

def term (compiler : Compiler) : Term → Except Error Clause
  | .stringEquals fields value =>
    .ok (anyField fields fun field => .term (compiler.names.qualified field) (.text value))
  | .stringContains [] value => .ok (compiler.anywhere value)
  | .stringContains (field :: fields) value =>
    .ok (anyField (field :: fields) fun field => .text (compiler.names.subfield field "full") value)
  | .numberEquals fields value =>
    .ok (anyField fields fun field =>
      .term (compiler.names.subfield field "number") (.number value))
  | .numberRange range =>
    .ok (anyField range.fields fun field =>
      .range (compiler.names.subfield field "number") range.bounds)
  | .presence _ true => .ok (.present compiler.names.geo)
  | .presence fields false =>
    .ok (anyField fields fun field => .present (compiler.names.qualified field))
  | .nearPoint near =>
    .ok (.near compiler.names.geo near.latitude near.longitude near.radius near.unit)
  | .namedArea area => (compiler.resolve area).map (Clause.ofArea compiler.names.geo)
  | .customArea custom => .ok (Clause.ofArea compiler.names.geo custom.area)

def group (clauses : List Clause) : Connective → Clause
  | .all => Clause.allOf clauses
  | .any => Clause.anyOf clauses
  | .none => .none clauses

mutual

def filter (compiler : Compiler) : Filter → Except Error Clause
  | .group connective members =>
    match filters compiler members with
    | .error error => .error error
    | .ok clauses => .ok (group clauses connective)
  | .term leaf => compiler.term leaf

def filters (compiler : Compiler) : List Filter → Except Error (List Clause)
  | [] => .ok []
  | member :: rest =>
    match filter compiler member with
    | .error error => .error error
    | .ok clause =>
      match filters compiler rest with
      | .error error => .error error
      | .ok clauses => .ok (clause :: clauses)

end

/-- Search and filter have to hold both; a document with neither holds always. -/
def document (compiler : Compiler) (document : Document) : Except Error Clause := do
  let search := (document.search.map compiler.anywhere).toList
  let clauses ← match document.filter with
    | some tree => do pure (search ++ [← compiler.filter tree])
    | none => pure search
  return if clauses.isEmpty then .everything else Clause.allOf clauses

end Compiler

end RecordQuery.Query
