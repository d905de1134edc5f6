import RecordQuery.Geometry

/-!
# Filters

A filter is a tree of groups over terms. A term that names several fields asks that any of them
meet its condition.
-/

namespace RecordQuery.Query

/-! ## Operators -/

inductive Connective where
  | all
  | any
  | none
deriving DecidableEq

inductive TermKind where
  | stringEquals
  | stringContains
  | numberEquals
  | numberRange
  | presence
  | nearPoint
  | namedArea
  | customArea
deriving DecidableEq

inductive Operator where
  | group (connective : Connective)
  | term (kind : TermKind)
deriving DecidableEq

namespace Connective

def name : Connective → String
  | .all => "and"
  | .any => "or"
  | .none => "not"

end Connective

namespace TermKind

def name : TermKind → String
  | .stringEquals => "string_equals"
  | .stringContains => "string_contains"
  | .numberEquals => "number_equals"
  | .numberRange => "number_range"
  | .presence => "exists"
  | .nearPoint => "geo_point"
  | .namedArea => "geo_named_area"
  | .customArea => "geo_custom_area"

end TermKind

namespace Operator

def all : List Operator :=
  [.group .all, .group .any, .group .none, .term .stringEquals,
    .term .stringContains, .term .numberEquals, .term .numberRange, .term .presence,
    .term .nearPoint, .term .namedArea, .term .customArea]

def name : Operator → String
  | .group connective => connective.name
  | .term kind => kind.name

def ofName? (name : String) : Option Operator := all.find? (·.name == name)

theorem ofName?_name (op : Operator) : ofName? op.name = some op := by
  cases op with
  | group c => cases c <;> decide
  | term k => cases k <;> decide

end Operator

/-! ## Terms and groups -/

open Json (Number)

/-- Polygons of rings of positions, with the numbers as they were written. -/
abbrev Coordinates := List (List (List (List Number)))

structure NumberRange where
  fields : List String
  upper : Option Number
  /-- Whether the upper bound itself is in the range. -/
  upperIncluded : Bool
  lower : Option Number
  /-- Whether the lower bound itself is in the range. -/
  lowerIncluded : Bool
deriving DecidableEq

structure NearPoint where
  latitude : Number
  longitude : Number
  radius : Number
  unit : String
deriving DecidableEq

structure NamedArea where
  category : String
  name : String
deriving DecidableEq

/-- An area with the numbers its author wrote and with what they denote. -/
structure CustomArea where
  coordinates : Coordinates
  area : Area
deriving DecidableEq

inductive Term where
  | stringEquals (fields : List String) (value : String)
  /-- Without fields the value may stand in any of them. -/
  | stringContains (fields : List String) (value : String)
  | numberEquals (fields : List String) (value : Number)
  | numberRange (range : NumberRange)
  /-- The place of a record instead of its fields if `ofGeo`. -/
  | presence (fields : List String) (ofGeo : Bool)
  | nearPoint (near : NearPoint)
  | namedArea (area : NamedArea)
  | customArea (custom : CustomArea)
deriving DecidableEq

inductive Filter where
  | group (connective : Connective) (members : List Filter)
  | term (term : Term)

namespace Term

def kind : Term → TermKind
  | .stringEquals .. => .stringEquals
  | .stringContains .. => .stringContains
  | .numberEquals .. => .numberEquals
  | .numberRange .. => .numberRange
  | .presence .. => .presence
  | .nearPoint .. => .nearPoint
  | .namedArea .. => .namedArea
  | .customArea .. => .customArea

end Term

namespace Filter

def operator : Filter → Operator
  | .group connective _ => .group connective
  | .term leaf => .term leaf.kind

mutual

def namedAreas : Filter → List NamedArea
  | .group _ members => namedAreasOfMembers members
  | .term (.namedArea area) => [area]
  | .term _ => []

def namedAreasOfMembers : List Filter → List NamedArea
  | [] => []
  | member :: rest => namedAreas member ++ namedAreasOfMembers rest

end

end Filter

end RecordQuery.Query
