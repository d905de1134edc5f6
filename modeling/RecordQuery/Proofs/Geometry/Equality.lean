import RecordQuery.Geometry

/-!
# Polygons that are equal

Polygons are compared point by point, and the coordinates of points as numbers, of which the two
zeros are one. Main statement: polygons are equal when their numbers are, so that being equal is an
equivalence.
-/

namespace RecordQuery

open Decimal (Binary)

-- Lists that are compared element by element are the same when all their images are.
theorem map_eq_of_compared {α β : Type} {f : α → β} {same : α → α → Bool}
    {sameAll : List α → List α → Bool} (hsame : ∀ a b, same a b = true ↔ f a = f b)
    (hnil : sameAll [] [] = true) (hleft : ∀ a as, sameAll (a :: as) [] = false)
    (hright : ∀ b bs, sameAll [] (b :: bs) = false)
    (hcons : ∀ a as b bs, sameAll (a :: as) (b :: bs) = (same a b && sameAll as bs))
    {as bs : List α} : sameAll as bs = true ↔ as.map f = bs.map f := by
  induction as generalizing bs with
  | nil =>
    cases bs with
    | nil => simp [hnil]
    | cons b bs => simp [hright]
  | cons a as ih =>
    cases bs with
    | nil => simp [hleft]
    | cons b bs =>
      rw [hcons, Bool.and_eq_true, hsame, ih, List.map_cons, List.map_cons, List.cons.injEq]

/-- The number in units. -/
def Decimal.Binary.signedUnits (x : Binary) : Int := if x.negative then -x.units else x.units

theorem Decimal.Binary.sameValue_eq_true_iff (x y : Binary) :
    x.sameValue y = true ↔ x.signedUnits = y.signedUnits := by
  simp only [sameValue, isZero, signedUnits, Bool.and_eq_true, Bool.or_eq_true, beq_iff_eq]
  cases x.negative <;> cases y.negative <;> simp <;> omega

/-- Longitude and latitude in units. -/
def Point.numbers (p : Point) : Int × Int := (p.lon.signedUnits, p.lat.signedUnits)

theorem Point.sameValue_eq_true_iff (p q : Point) :
    p.sameValue q = true ↔ p.numbers = q.numbers := by
  rw [sameValue, Bool.and_eq_true, Binary.sameValue_eq_true_iff, Binary.sameValue_eq_true_iff,
    numbers, numbers, Prod.mk.injEq]

/-- The numbers of the points in their order. -/
def Ring.numbers (ring : Ring) : List (Int × Int) := ring.map Point.numbers

theorem Ring.sameValue_eq_true_iff (ring other : Ring) :
    Ring.sameValue ring other = true ↔ Ring.numbers ring = Ring.numbers other :=
  map_eq_of_compared Point.sameValue_eq_true_iff rfl (fun _ _ => rfl) (fun _ _ => rfl)
    fun _ _ _ _ => rfl

/-- The numbers of the outer ring, and those of the holes in their order. -/
def Polygon.numbers (polygon : Polygon) : List (Int × Int) × List (List (Int × Int)) :=
  (Ring.numbers polygon.outer, polygon.holes.map Ring.numbers)

theorem Polygon.sameValue_eq_true_iff (polygon other : Polygon) :
    polygon.sameValue other = true ↔ polygon.numbers = other.numbers := by
  have hholes : sameHoles polygon.holes other.holes = true ↔
      polygon.holes.map Ring.numbers = other.holes.map Ring.numbers :=
    map_eq_of_compared Ring.sameValue_eq_true_iff rfl (fun _ _ => rfl) (fun _ _ => rfl)
      fun _ _ _ _ => rfl
  rw [sameValue, Bool.and_eq_true, Ring.sameValue_eq_true_iff, hholes, numbers, numbers,
    Prod.mk.injEq]

theorem Area.contains_eq_true_iff (area : Area) (polygon : Polygon) :
    area.contains polygon = true ↔ polygon.numbers ∈ area.polygons.map Polygon.numbers := by
  rw [contains, List.any_eq_true, List.mem_map]
  simp only [Polygon.sameValue_eq_true_iff]

end RecordQuery
