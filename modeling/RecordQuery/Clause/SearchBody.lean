import RecordQuery.Clause
import RecordQuery.Json.Value

/-!
# Search bodies

A clause as a JSON object in the query language of Elasticsearch.
-/

namespace RecordQuery

open Json (Value)

namespace TermValue

def body : TermValue → Value
  | .text words => .string words
  | .number n => .number n

end TermValue

namespace Point

def body (p : Point) : Value :=
  .ofMembers [("lat", .number (.decimal p.lat)), ("lon", .number (.decimal p.lon))]

end Point

namespace Clause

def single (key : String) (value : Value) : Value := .object [(key, value)]

def keyed (kind field : String) (body : Value) : Value := single kind (single field body)

def count (n : UInt64) : Value :=
  .number (.integer n.toNat (by have := n.toNat_lt; omega))

mutual

/-- The search body of a clause. Where a distance is asked of a field called `distance`, only the
point is left, because it stands under the same key and is put there last. -/
def body : Clause → Value
  | .everything => single "match_all" (.object [])
  | .text field words =>
    keyed "match" field (.ofMembers [("query", .string words), ("operator", .string "and")])
  | .term field value => keyed "term" field value.body
  | .range field bounds =>
    keyed "range" field (.ofMembers (bounds.entries.map fun (name, bound) => (name, .number bound)))
  | .present field => keyed "exists" "field" (.string field)
  | .near field lat lon radius unit =>
    single "geo_distance" (.ofMembers
      [("distance", .string (radius.render ++ unit)),
       (field, .ofMembers [("lat", .number lat), ("lon", .number lon)])])
  | .within field ring =>
    keyed "geo_polygon" field (single "points" (.array (ring.map Point.body)))
  | .all children [] => keyed "bool" "filter" (.array (bodies children))
  | .all children (first :: excluded) =>
    single "bool" (.ofMembers
      [("filter", .array (bodies children)), ("must_not", .array (bodies (first :: excluded)))])
  | .any children minMatch =>
    single "bool" (.ofMembers
      [("should", .array (bodies children)), ("minimum_should_match", count minMatch)])
  | .none children => keyed "bool" "must_not" (.array (bodies children))

def bodies : List Clause → List Value
  | [] => []
  | clause :: rest => body clause :: bodies rest

end

end Clause

end RecordQuery
