import RecordQuery.Geometry

/-!
# Clauses

Conditions on records in the terms in which records are stored: what a query is compiled to.
-/

namespace RecordQuery

/-!
## Field names

How the fields of a query are called where records are stored. The fields of a record stand under
a common name; the text of all fields and the place of a record have names of their own.
-/

structure FieldNames where
  /-- What the fields of records stand under. -/
  base : String
  /-- The field with the text of all fields. -/
  allText : String
  /-- The field with the place of a record. -/
  geo : String
deriving DecidableEq

namespace FieldNames

def standard : FieldNames := ⟨"data", "meta.all", "meta.geo"⟩

def qualified (names : FieldNames) (field : String) : String := names.base ++ "." ++ field

def subfield (names : FieldNames) (field part : String) : String :=
  names.base ++ "." ++ field ++ "." ++ part

end FieldNames

/-! ## Conditions -/

open Json (Number)

inductive TermValue where
  | text (text : String)
  | number (number : Number)
deriving DecidableEq

/-- The bounds of a range; one that is not there does not restrict. -/
structure Bounds where
  lt : Option Number
  lte : Option Number
  gt : Option Number
  gte : Option Number
deriving DecidableEq

namespace Bounds

def entries (bounds : Bounds) : List (String × Number) :=
  [("lt", bounds.lt), ("lte", bounds.lte), ("gt", bounds.gt), ("gte", bounds.gte)].filterMap
    fun (name, bound) => bound.map fun n => (name, n)

end Bounds

inductive Clause where
  | everything
  /-- Every word of the text stands in the field. -/
  | text (field text : String)
  | term (field : String) (value : TermValue)
  | range (field : String) (bounds : Bounds)
  | present (field : String)
  /-- Within a distance of a point. -/
  | near (field : String) (lat lon radius : Number) (unit : String)
  | within (field : String) (ring : Ring)
  /-- Every child holds and none of the excluded clauses. -/
  | all (children excluded : List Clause)
  /-- At least `minMatch` of the children hold. -/
  | any (children : List Clause) (minMatch : UInt64)
  /-- No child holds. -/
  | none (children : List Clause)

namespace Clause

/-- Some clause holds; a single clause stands for itself. -/
def anyOf : List Clause → Clause
  | [clause] => clause
  | clauses => .any clauses 1

def allOf : List Clause → Clause
  | [clause] => clause
  | clauses => .all clauses []

def ofPolygon (field : String) (polygon : Polygon) : Clause :=
  if polygon.hasHoles then
    .all [.within field polygon.outer] (polygon.holes.map (.within field))
  else .within field polygon.outer

def ofArea (field : String) (area : Area) : Clause :=
  anyOf (area.polygons.map (ofPolygon field))

end Clause

end RecordQuery
