import RecordQuery.Clause
import RecordQuery.Text.Quoted

/-!
# Outlines of clauses

A clause as indented lines, one for each part.
-/

namespace RecordQuery

namespace TermValue

def outline : TermValue → String
  | .text words => Text.Quoted.encode words
  | .number n => n.render

end TermValue

namespace Bounds

def outline (bounds : Bounds) : String :=
  ", ".intercalate (bounds.entries.map fun (name, bound) => name ++ "=" ++ bound.render)

end Bounds

namespace Clause

def line (depth : Nat) (content : String) : String :=
  String.ofList (List.replicate (2 * depth) ' ') ++ content ++ "\n"

mutual

def outlineAt (depth : Nat) : Clause → String
  | .everything => line depth "MatchAll"
  | .text field words =>
    line depth ("MatchText(" ++ field ++ ", " ++ Text.Quoted.encode words ++ ")")
  | .term field value => line depth ("Term(" ++ field ++ ", " ++ value.outline ++ ")")
  | .range field bounds => line depth ("Range(" ++ field ++ ", " ++ bounds.outline ++ ")")
  | .present field => line depth ("Exists(" ++ field ++ ")")
  | .near field lat lon radius unit =>
    line depth ("GeoDistance(" ++ field ++ ", lat=" ++ lat.render ++ ", lon=" ++ lon.render ++
      ", " ++ radius.render ++ unit ++ ")")
  | .within field ring =>
    line depth ("GeoPolygon(" ++ field ++ ", " ++ toString ring.length ++ " points)")
  | .all children [] => line depth "BoolAll" ++ outlineList (depth + 1) children
  | .all children (first :: excluded) =>
    line depth "BoolAll" ++ outlineList (depth + 1) children ++ line (depth + 1) "MustNot" ++
      outlineList (depth + 2) (first :: excluded)
  | .any children minMatch =>
    line depth ("BoolAny(min_match=" ++ toString minMatch.toNat ++ ")") ++
      outlineList (depth + 1) children
  | .none children => line depth "BoolNot" ++ outlineList (depth + 1) children

def outlineList (depth : Nat) : List Clause → String
  | [] => ""
  | clause :: rest => outlineAt depth clause ++ outlineList depth rest

end

def outline (clause : Clause) : String := outlineAt 0 clause

end Clause

end RecordQuery
