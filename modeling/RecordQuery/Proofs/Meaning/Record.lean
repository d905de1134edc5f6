import RecordQuery.Clause
import RecordQuery.Proofs.Matching

/-!
# What clauses say of records

A record is given by what is true of it; the truth of a clause is worked out from that. Nothing
is assumed of how the simple conditions depend on each other.
-/

namespace RecordQuery

open Json (Number)

/-- The truth of every simple condition for one record. -/
structure Record where
  text : (field words : String) → Bool
  term : (field : String) → TermValue → Bool
  present : (field : String) → Bool
  below : (field : String) → Number → Bool
  atMost : (field : String) → Number → Bool
  above : (field : String) → Number → Bool
  atLeast : (field : String) → Number → Bool
  near : (field : String) → (lat lon radius : Number) → (unit : String) → Bool
  within : (field : String) → Ring → Bool

namespace Record

def inBounds (record : Record) (field : String) (bounds : Bounds) : Bool :=
  bounds.lt.all (record.below field) && bounds.lte.all (record.atMost field) &&
    bounds.gt.all (record.above field) && bounds.gte.all (record.atLeast field)

/-- Inside of some polygon of the area and in none of the holes of that polygon. -/
def inArea (record : Record) (field : String) (area : Area) : Bool :=
  area.polygons.any fun polygon =>
    record.within field polygon.outer && !polygon.holes.any (record.within field)

end Record

namespace Clause

mutual

/-- Whether a clause is true of a record. -/
def holds (record : Record) : Clause → Bool
  | .everything => true
  | .text field words => record.text field words
  | .term field value => record.term field value
  | .range field bounds => record.inBounds field bounds
  | .present field => record.present field
  | .near field lat lon radius unit => record.near field lat lon radius unit
  | .within field ring => record.within field ring
  | .all children excluded =>
    (truths record children).all id && !(truths record excluded).any id
  | .any children minMatch => decide (minMatch.toNat ≤ (truths record children).count true)
  | .none children => !(truths record children).any id

def truths (record : Record) : List Clause → List Bool
  | [] => []
  | clause :: rest => holds record clause :: truths record rest

end

variable (record : Record)

theorem truths_eq_map (clauses : List Clause) :
    truths record clauses = clauses.map (holds record) :=
  eq_map_of_cons rfl (fun _ _ => rfl) clauses

theorem holds_all (children excluded : List Clause) :
    holds record (.all children excluded) =
      (children.all (holds record) && !excluded.any (holds record)) := by
  rw [holds, truths_eq_map, truths_eq_map, List.all_map, List.any_map]
  rfl

theorem holds_any (children : List Clause) (minMatch : UInt64) :
    holds record (.any children minMatch) =
      decide (minMatch.toNat ≤ children.countP (holds record)) := by
  rw [holds, truths_eq_map, List.count_eq_countP, List.countP_map]
  have hbeq : (fun b : Bool => b == true) ∘ holds record = holds record := by
    funext clause
    exact beq_true _
  rw [hbeq]

theorem holds_none (children : List Clause) :
    holds record (.none children) = !children.any (holds record) := by
  rw [holds, truths_eq_map, List.any_map]
  rfl

-- One clause has to hold; this is so as well where a single clause stands for itself.
theorem holds_anyOf (clauses : List Clause) :
    holds record (anyOf clauses) = clauses.any (holds record) := by
  -- At least one match is what any match is.
  have hcount : decide ((1 : UInt64).toNat ≤ clauses.countP (holds record)) =
      clauses.any (holds record) := by
    rw [Bool.eq_iff_iff, decide_eq_true_iff, List.any_eq_true]
    exact List.one_le_countP_iff
  unfold anyOf
  split
  · simp only [List.any_cons, List.any_nil, Bool.or_false]
  · rw [holds_any, hcount]

theorem holds_allOf (clauses : List Clause) :
    holds record (allOf clauses) = clauses.all (holds record) := by
  unfold allOf
  split
  · simp only [List.all_cons, List.all_nil, Bool.and_true]
  · rw [holds_all, List.any_nil, Bool.not_false, Bool.and_true]

theorem holds_ofPolygon (field : String) (polygon : Polygon) :
    holds record (ofPolygon field polygon) =
      (record.within field polygon.outer && !polygon.holes.any (record.within field)) := by
  have hwithin : holds record ∘ Clause.within field = record.within field := by
    funext ring
    rw [Function.comp_apply, holds]
  unfold ofPolygon
  split
  · rw [holds_all, List.any_map, hwithin, List.all_cons, List.all_nil, Bool.and_true, holds]
  · -- Without holes there is nothing to leave out.
    rename_i hholes
    have hnil : polygon.holes = [] := by
      simpa [Polygon.hasHoles] using hholes
    rw [hnil, List.any_nil, Bool.not_false, Bool.and_true, holds]

theorem holds_ofArea (field : String) (area : Area) :
    holds record (ofArea field area) = record.inArea field area := by
  have hpolygon : holds record ∘ ofPolygon field = fun polygon =>
      record.within field polygon.outer && !polygon.holes.any (record.within field) := by
    funext polygon
    exact holds_ofPolygon record field polygon
  rw [ofArea, holds_anyOf, List.any_map, hpolygon, Record.inArea]

end Clause

end RecordQuery
