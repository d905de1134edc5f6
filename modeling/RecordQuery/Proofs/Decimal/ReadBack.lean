import RecordQuery.Decimal.Binary

/-!
# Reading decimals back

The binary number nearest to a decimal depends on what the decimal denotes and not on how many
zeros it ends with. Main statement: the shortest digits of a binary number read back as that
number, so different numbers have different digits.
-/

namespace RecordQuery.Decimal

theorem tenPow_pos (n : Nat) : 0 < tenPow n := Nat.pow_pos (by decide)

theorem tenPow_add (m n : Nat) : tenPow (m + n) = tenPow m * tenPow n := Nat.pow_add 10 m n

/-! ## Rounding of quotients -/

theorem roundHalfEven_mul_mul (n d : Nat) {k : Nat} (hk : 0 < k) :
    roundHalfEven (n * k) (d * k) = roundHalfEven n d := by
  have hquotient : n * k / (d * k) = n / d := Nat.mul_div_mul_right n d hk
  have hrest : n * k % (d * k) = n % d * k := Nat.mul_mod_mul_right k n d
  have hbelow : 2 * (n % d * k) < d * k ↔ 2 * (n % d) < d := by
    rw [← Nat.mul_assoc]
    exact Nat.mul_lt_mul_right hk
  have habove : d * k < 2 * (n % d * k) ↔ d < 2 * (n % d) := by
    rw [← Nat.mul_assoc]
    exact Nat.mul_lt_mul_right hk
  simp only [roundHalfEven, hquotient, hrest, hbelow, habove]

theorem nearestUnits_mul_mul (num den : Nat) {k : Nat} (hk : 0 < k) :
    nearestUnits (num * k) (den * k) = nearestUnits num den := by
  have hnum : num * k * unitsPerOne = num * unitsPerOne * k := Nat.mul_right_comm num k unitsPerOne
  have hstep : num * unitsPerOne * k / (den * k) = num * unitsPerOne / den :=
    Nat.mul_div_mul_right _ _ hk
  simp only [nearestUnits, hnum, hstep]
  rw [Nat.mul_right_comm den k, roundHalfEven_mul_mul _ _ hk]

@[simp] theorem nearestUnits_zero (den : Nat) : nearestUnits 0 den = 0 := by
  by_cases hden : den = 0
  · subst hden
    simp [nearestUnits, roundHalfEven]
  · have hstep : 0 < den * spacing 0 := Nat.mul_pos (Nat.pos_of_ne_zero hden) (twoPow_pos _)
    simp [nearestUnits, roundHalfEven, hstep]

-- A number on the grid is nearest to itself, in whatever unit it is given.
theorem nearestUnits_eq_self {num den units : Nat} (hden : 0 < den)
    (h : num * unitsPerOne = units * den) (hgrid : OnGrid units) :
    nearestUnits num den = units := by
  obtain ⟨count, hcount⟩ := hgrid
  have hfloor : units * den / den = units := Nat.mul_div_cancel units hden
  have hspacing : 0 < den * spacing units := Nat.mul_pos hden (twoPow_pos _)
  simp only [nearestUnits, h, hfloor]
  -- The quotient is a whole count of steps, so nothing is rounded.
  have hwhole : units * den = count * (den * spacing units) :=
    calc
      units * den = spacing units * count * den := congrArg (· * den) hcount
      _ = count * (den * spacing units) := by
        rw [Nat.mul_comm (spacing units) count, Nat.mul_assoc, Nat.mul_comm (spacing units) den]
  rw [hwhole, roundHalfEven_mul count hspacing, Nat.mul_comm]
  exact hcount.symm

namespace Digits

/-! ## Decimals of one value -/

theorem unitsOf_zero (exponent : Int) : unitsOf 0 exponent = 0 := by
  unfold unitsOf
  split <;> simp

-- Zeros at the end of the digits are made up for by the exponent.
theorem unitsOf_mul_tenPow (n k : Nat) (exponent : Int) :
    unitsOf (n * tenPow k) exponent = unitsOf n (exponent + k) := by
  unfold unitsOf
  -- Whether a power multiplies or divides depends on the signs of both exponents.
  by_cases hneg : exponent < 0
  · by_cases hsum : exponent + k < 0
    · have hsplit : exponent.natAbs = (exponent + k).natAbs + k := by omega
      rw [if_pos hneg, if_pos hsum, hsplit, tenPow_add, nearestUnits_mul_mul _ _ (tenPow_pos k)]
    · have hsplit : k = (exponent + k).natAbs + exponent.natAbs := by omega
      have hk : tenPow k = tenPow (exponent + k).natAbs * tenPow exponent.natAbs := by
        rw [← tenPow_add, ← hsplit]
      rw [if_pos hneg, if_neg hsum, hk, ← Nat.mul_assoc,
        ← nearestUnits_mul_mul (n * tenPow (exponent + k).natAbs) 1 (tenPow_pos exponent.natAbs),
        Nat.one_mul]
  · have hsum : ¬ exponent + k < 0 := by omega
    have hsplit : (exponent + k).natAbs = k + exponent.natAbs := by omega
    rw [if_neg hneg, if_neg hsum, hsplit, tenPow_add, Nat.mul_assoc]

/-- The whole number that digits denote. -/
def value (digits : List Char) : Nat := Nat.ofDigitChars 10 digits 0

theorem value_nil : value [] = 0 := Nat.ofDigitChars_nil

theorem value_append_zeros (digits : List Char) (k : Nat) :
    value (digits ++ List.replicate k '0') = value digits * tenPow k := by
  rw [value, Nat.ofDigitChars_append, Nat.ofDigitChars_replicate_zero, Nat.mul_comm]
  rfl

theorem value_zeros_append (digits : List Char) (k : Nat) :
    value (List.replicate k '0' ++ digits) = value digits := by
  rw [value, Nat.ofDigitChars_append, Nat.ofDigitChars_replicate_zero, Nat.mul_zero]
  rfl

/-- The units of the binary number nearest to the decimal. -/
def units (d : Digits) : Nat := unitsOf (value d.digits) (d.point - d.digits.length)

theorem exists_append_zeros (digits : List Char) :
    ∃ k, digits = (digits.reverse.dropWhile (· == '0')).reverse ++ List.replicate k '0' := by
  refine ⟨(digits.reverse.takeWhile (· == '0')).length, ?_⟩
  have hzeros : digits.reverse.takeWhile (· == '0') =
      List.replicate (digits.reverse.takeWhile (· == '0')).length '0' := by
    rw [List.eq_replicate_iff]
    refine ⟨rfl, fun c hc => ?_⟩
    exact eq_of_beq (List.all_eq_true.1 List.all_takeWhile c hc)
  rw [← List.reverse_reverse (List.replicate _ '0'), List.reverse_replicate, ← hzeros,
    ← List.reverse_append, List.takeWhile_append_dropWhile, List.reverse_reverse]

-- Taking zeros away from the end of the digits does not change what they read as.
theorem units_ofScaled (n : Nat) (exponent : Int) :
    (ofScaled n exponent).units = unitsOf n exponent := by
  obtain ⟨k, hk⟩ := exists_append_zeros (Nat.toDigits 10 n)
  rw [units, ofScaled]
  -- What is left of the digits is all that matters from here on.
  generalize ((Nat.toDigits 10 n).reverse.dropWhile (· == '0')).reverse = digits at hk
  have hvalue : n = value digits * tenPow k := by
    rw [← value_append_zeros, ← hk, value, Nat.ofDigitChars_ten_toDigits]
  have hlength : (Nat.toDigits 10 n).length = digits.length + k := by
    rw [hk, List.length_append, List.length_replicate]
  have hexponent : ((Nat.toDigits 10 n).length : Int) + exponent - digits.length =
      exponent + k := by
    rw [hlength]
    omega
  simp only [hexponent]
  conv => rhs; rw [hvalue]
  exact (unitsOf_mul_tenPow _ _ _).symm

/-! ## The shortest digits -/

-- What is taken from a grid has been read back.
theorem onGrid?_eq_some {u : Nat} {exponent : Int} {d : Digits}
    (h : onGrid? u exponent = some d) :
    ∃ n, d = ofScaled n exponent ∧ unitsOf n exponent = u := by
  -- Of the two neighbours on the grid only one that reads back is taken.
  unfold onGrid? at h
  extract_lets num den below rest lowerReads upperReads upperNearer at h
  split at h
  · rename_i htaken
    have hreads : upperReads = true := (Bool.and_eq_true_iff.1 htaken).1
    exact ⟨below + 1, (Option.some.inj h).symm, eq_of_beq hreads⟩
  · split at h
    · rename_i hreads
      exact ⟨below, (Option.some.inj h).symm, eq_of_beq hreads⟩
    · exact absurd h (by simp)

-- No digit is lost when all are written, as a power of ten is a multiple of that power of two.
theorem nearestUnits_mul_tenPow_div {u places : Nat} (hgrid : OnGrid u)
    (hplaces : twoPow places = unitsPerOne) :
    nearestUnits (u * tenPow places / unitsPerOne) (tenPow places) = u := by
  -- Multiplied by as many tens as there are twos in a unit, units become whole.
  have hpow : tenPow places = Nat.pow 5 places * unitsPerOne := by
    rw [← hplaces]
    exact Nat.mul_pow 5 2 places
  have hdivide : u * tenPow places / unitsPerOne = u * Nat.pow 5 places := by
    rw [hpow, ← Nat.mul_assoc, Nat.mul_div_cancel _ unitsPerOne_pos]
  rw [hdivide]
  apply nearestUnits_eq_self (tenPow_pos places) _ hgrid
  rw [hpow, Nat.mul_assoc]

theorem exists_ofScaled_eq_allDigits {u : Nat} (hgrid : OnGrid u) :
    ∃ n exponent, allDigits u = ofScaled n exponent ∧ unitsOf n exponent = u := by
  refine ⟨u * tenPow 1074 / unitsPerOne, -1074, rfl, ?_⟩
  have hplaces : twoPow 1074 = unitsPerOne := by rw [unitsPerOne]
  have hneg : (-1074 : Int) < 0 := by decide
  rw [unitsOf, if_pos hneg]
  exact nearestUnits_mul_tenPow_div hgrid hplaces

theorem exists_ofScaled_eq_shortest {u : Nat} (hgrid : OnGrid u) :
    ∃ n exponent, shortest u = ofScaled n exponent ∧ unitsOf n exponent = u := by
  unfold shortest
  cases hfound : onSomeGrid? u (pointOf u) with
  | some d =>
    rw [onSomeGrid?] at hfound
    obtain ⟨n, _, hn⟩ := List.exists_of_findSome?_eq_some hfound
    obtain ⟨m, hd, hm⟩ := onGrid?_eq_some hn
    exact ⟨m, _, hd, hm⟩
  | none =>
    rw [Option.getD_none]
    exact exists_ofScaled_eq_allDigits hgrid

theorem units_shortest {u : Nat} (hgrid : OnGrid u) : (shortest u).units = u := by
  obtain ⟨n, exponent, hshortest, hunits⟩ := exists_ofScaled_eq_shortest hgrid
  rw [hshortest, units_ofScaled, hunits]

theorem isDigit_of_mem_shortest {u : Nat} (hgrid : OnGrid u) {c : Char}
    (h : c ∈ (shortest u).digits) : c.isDigit = true := by
  obtain ⟨n, exponent, hshortest, _⟩ := exists_ofScaled_eq_shortest hgrid
  rw [hshortest, ofScaled, List.mem_reverse] at h
  have hmem := List.mem_reverse.1 ((List.dropWhile_sublist _).mem h)
  exact Nat.isDigit_of_mem_toDigits (by decide) (by decide) hmem

end Digits

end RecordQuery.Decimal
