/-!
# Binary floating point

The finite numbers of 53 significant bits: a sign and a whole number of units of 2⁻¹⁰⁷⁴. All
arithmetic is exact in that unit and then rounded once, to the nearest such number and to the
even neighbour on a tie.
-/

namespace RecordQuery.Decimal

/-! ## Powers of two and ten -/

def twoPow (n : Nat) : Nat := Nat.pow 2 n

def tenPow (n : Nat) : Nat := Nat.pow 10 n

theorem twoPow_pos (n : Nat) : 0 < twoPow n := Nat.two_pow_pos n

theorem twoPow_add (m n : Nat) : twoPow (m + n) = twoPow m * twoPow n := Nat.pow_add 2 m n

theorem twoPow_succ (n : Nat) : twoPow (n + 1) = 2 * twoPow n := Nat.pow_succ'

theorem twoPow_le_twoPow {m n : Nat} (h : m ≤ n) : twoPow m ≤ twoPow n :=
  Nat.pow_le_pow_right (by decide) h

theorem twoPow_dvd_twoPow {m n : Nat} (h : m ≤ n) : twoPow m ∣ twoPow n := Nat.pow_dvd_pow 2 h

theorem log2_twoPow (n : Nat) : (twoPow n).log2 = n := Nat.log2_two_pow

theorem log2_lt_iff {n k : Nat} (h : n ≠ 0) : n.log2 < k ↔ n < twoPow k := Nat.log2_lt h

theorem lt_twoPow_log2 (n : Nat) : n < twoPow (n.log2 + 1) := Nat.lt_log2_self

theorem twoPow_log2_le {n : Nat} (h : n ≠ 0) : twoPow n.log2 ≤ n := Nat.log2_self_le h

/-! ## Numbers -/

/-- The quotient `n / d` rounded to a whole number, a half going to the even one. -/
def roundHalfEven (n d : Nat) : Nat :=
  let q := n / d
  let r := n % d
  if 2 * r < d then q
  else if d < 2 * r then q + 1
  else if q % 2 = 0 then q
  else q + 1

theorem roundHalfEven_le (n d : Nat) : roundHalfEven n d ≤ n / d + 1 := by
  simp only [roundHalfEven]
  split
  · omega
  · split
    · omega
    · split <;> omega

theorem roundHalfEven_mul (n : Nat) {d : Nat} (h : 0 < d) : roundHalfEven (n * d) d = n := by
  simp [roundHalfEven, Nat.mul_div_cancel n h, h]

def spacing (n : Nat) : Nat := twoPow (n.log2 - 52)

/-- A count of units that 53 significant bits can hold. -/
def OnGrid (n : Nat) : Prop := spacing n ∣ n

instance (n : Nat) : Decidable (OnGrid n) := inferInstanceAs (Decidable (_ ∣ _))

def unitsPerOne : Nat := twoPow 1074

theorem unitsPerOne_pos : 0 < unitsPerOne := twoPow_pos 1074

def nearestUnits (num den : Nat) : Nat :=
  let step := spacing (num * unitsPerOne / den)
  roundHalfEven (num * unitsPerOne) (den * step) * step

theorem onGrid_mul_twoPow {q s : Nat} (h : q ≤ twoPow 53) : OnGrid (q * twoPow s) := by
  unfold OnGrid spacing
  by_cases hq : q = twoPow 53
  · rw [hq, ← twoPow_add, log2_twoPow]
    exact twoPow_dvd_twoPow (by omega)
  · by_cases h0 : q = 0
    · simp [h0]
    · -- The spacing around a count of less than `53 + s` bits is at most `twoPow s`.
      have hlt : q * twoPow s < twoPow (53 + s) := by
        rw [twoPow_add]
        exact Nat.mul_lt_mul_of_pos_right (by omega) (twoPow_pos s)
      have hne : q * twoPow s ≠ 0 := Nat.mul_ne_zero h0 (Nat.ne_of_gt (twoPow_pos s))
      have hlog := (log2_lt_iff hne).2 hlt
      exact Nat.dvd_trans (twoPow_dvd_twoPow (by omega)) (Nat.dvd_mul_left _ _)

theorem onGrid_nearestUnits (num den : Nat) : OnGrid (nearestUnits num den) := by
  unfold nearestUnits spacing
  generalize num * unitsPerOne = n
  apply onGrid_mul_twoPow
  refine Nat.le_trans (roundHalfEven_le _ _) ?_
  have hlt : n / den < twoPow 53 * twoPow ((n / den).log2 - 52) := by
    refine Nat.lt_of_lt_of_le (lt_twoPow_log2 _) ?_
    rw [← twoPow_add]
    exact twoPow_le_twoPow (by omega)
  -- So the quotient by the spacing has at most 53 bits.
  rw [← Nat.div_div_eq_div_mul]
  exact (Nat.div_lt_iff_lt_mul (twoPow_pos _)).2 hlt

theorem nearestUnits_le (num den : Nat) (h : 0 < den) :
    nearestUnits num den ≤ 2 * (num * unitsPerOne) := by
  simp only [nearestUnits, spacing]
  generalize num * unitsPerOne = n
  generalize hk : (n / den).log2 - 52 = k
  have hround := Nat.mul_le_mul_right (twoPow k) (roundHalfEven_le n (den * twoPow k))
  have hfloor : n / (den * twoPow k) * twoPow k ≤ n := by
    rw [← Nat.div_div_eq_div_mul]
    exact Nat.le_trans (Nat.div_mul_le_self _ _) (Nat.div_le_self _ _)
  -- Below one unit the spacing is one; above it the spacing is at most what is rounded.
  by_cases hn : n / den = 0
  · have hk0 : k = 0 := by rw [hn] at hk; simpa using hk.symm
    subst hk0
    have hlt : n < den := (Nat.div_eq_zero_iff_lt h).1 hn
    have hone : twoPow 0 = 1 := rfl
    by_cases hz : n = 0
    · subst hz
      simp [roundHalfEven, h, hone]
    · simp only [hone, Nat.mul_one] at hround hfloor ⊢
      omega
  · have hstep : twoPow k ≤ n := by
      refine Nat.le_trans (twoPow_le_twoPow (by omega : k ≤ (n / den).log2)) ?_
      exact Nat.le_trans (twoPow_log2_le hn) (Nat.div_le_self _ _)
    rw [Nat.add_mul, Nat.one_mul] at hround
    omega

def limit : Nat := twoPow 2098

theorem limit_pos : 0 < limit := twoPow_pos 2098

theorem nearestUnits_lt_limit {num bits : Nat} (h : num < twoPow bits) (hbits : bits ≤ 1000) :
    nearestUnits num 1 < limit := by
  refine Nat.lt_of_le_of_lt (nearestUnits_le num 1 (by decide)) ?_
  have hlt : num * unitsPerOne < twoPow bits * unitsPerOne :=
    Nat.mul_lt_mul_of_pos_right h unitsPerOne_pos
  have hle : 2 * (twoPow bits * unitsPerOne) ≤ limit := by
    unfold unitsPerOne limit
    rw [← twoPow_add, ← twoPow_succ]
    exact twoPow_le_twoPow (by omega)
  omega

/-- A finite number: `units * 2⁻¹⁰⁷⁴`, or its opposite. Zero has both signs. -/
structure Binary where
  negative : Bool
  units : Nat
  onGrid : OnGrid units
  finite : units < limit
deriving DecidableEq

namespace Binary

def zero (negative : Bool) : Binary := ⟨negative, 0, by decide, limit_pos⟩

instance : Inhabited Binary := ⟨zero false⟩

def isZero (x : Binary) : Bool := x.units == 0

/-- The number of the given sign nearest to `num / den`, unless that is beyond the finite ones. -/
def ofQuotient? (negative : Bool) (num den : Nat) : Option Binary :=
  if h : nearestUnits num den < limit then
    some ⟨negative, nearestUnits num den, onGrid_nearestUnits num den, h⟩
  else none

def ofInt (n : Int) (h : n.natAbs < 0x10000000000000000) : Binary :=
  ⟨n < 0, nearestUnits n.natAbs 1, onGrid_nearestUnits _ 1,
    nearestUnits_lt_limit (Nat.lt_of_lt_of_eq h (by decide : 0x10000000000000000 = twoPow 64))
      (by decide)⟩

def mul? (x y : Binary) : Option Binary :=
  ofQuotient? (x.negative != y.negative) (x.units * y.units) (twoPow 2148)

/-- The divisor is never zero where this is used; by zero there is no quotient. -/
def div? (x y : Binary) : Option Binary :=
  if y.isZero then none else ofQuotient? (x.negative != y.negative) x.units y.units

/-- Equality of the numbers denoted: the two zeros are equal. -/
def sameValue (x y : Binary) : Bool :=
  x.units == y.units && (x.negative == y.negative || x.isZero)

end Binary

/-!
## Shortest decimals

The decimal with the fewest digits that reads back as a given binary number. Each grid of one
to seventeen digits is tried in turn: if any of its points reads back, one of the two around the
number does. The nearer of two is taken, the even one on a tie.
-/

/-- The number `0.d₁d₂… * 10 ^ point`. -/
structure Digits where
  digits : List Char
  point : Int
deriving DecidableEq

namespace Digits

def unitsOf (n : Nat) (exponent : Int) : Nat :=
  if exponent < 0 then nearestUnits n (tenPow exponent.natAbs)
  else nearestUnits (n * tenPow exponent.natAbs) 1

/-- How many places before the decimal point a count of units has; negative where zeros follow
the point. The least positive number has more than one unit in 10³³⁰ of one. -/
def pointOf (units : Nat) : Int :=
  (Nat.toDigits 10 (units * tenPow 330 / unitsPerOne)).length - 330

def ofScaled (n : Nat) (exponent : Int) : Digits :=
  let digits := Nat.toDigits 10 n
  ⟨(digits.reverse.dropWhile (· == '0')).reverse, digits.length + exponent⟩

/-- The better of the two points around `units` on the grid of multiples of `10 ^ exponent`. -/
def onGrid? (units : Nat) (exponent : Int) : Option Digits :=
  let num := if exponent < 0 then units * tenPow exponent.natAbs else units
  let den := if exponent < 0 then unitsPerOne else unitsPerOne * tenPow exponent.natAbs
  -- The number lies at `num / den` on the grid, between `below` and `below + 1`.
  let below := num / den
  let rest := num % den
  let lowerReads := unitsOf below exponent == units
  let upperReads := unitsOf (below + 1) exponent == units
  let upperNearer := den < 2 * rest || (den == 2 * rest && below % 2 == 1)
  if upperReads && (upperNearer || !lowerReads) then some (ofScaled (below + 1) exponent)
  else if lowerReads then some (ofScaled below exponent)
  else none

/-- A decimal with few digits, of which `point` places stand before the decimal point. -/
def onSomeGrid? (units : Nat) (point : Int) : Option Digits :=
  (List.range 17).findSome? fun n => onGrid? units (point - (n + 1 : Nat))

def allDigits (units : Nat) : Digits := ofScaled (units * tenPow 1074 / unitsPerOne) (-1074)

/-- The fewest digits for `units`; all its digits should no short grid serve. -/
def shortest (units : Nat) : Digits := (onSomeGrid? units (pointOf units)).getD (allDigits units)

end Digits

end RecordQuery.Decimal
