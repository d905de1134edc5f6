import RecordQuery.Json.Value
import RecordQuery.Proofs.Decimal.ReadBack
import RecordQuery.Proofs.Text.Splitting

/-!
# Written numbers

The text of a number comes apart into sign, whole part, fraction and exponent in one way only,
whatever stands behind it. Main statement: numbers with the same text are the same, also where
other text follows, as long as it does not go on like a number.
-/

namespace RecordQuery.Json

open Decimal (Binary Digits OnGrid)
open Decimal.Digits (value unitsOf)

/-- The parts of a number as they are written. -/
structure Numeral where
  negative : Bool
  whole : List Char
  fraction : Option (List Char)
  exponent : Option Int

/-! ## Texts that go on like a number -/

def startsWithDigit (text : List Char) : Bool := text.head?.any Char.isDigit

/-- Behind a number the text would be read as more of it: as more digits, as a fraction or as an
exponent. -/
def goesOn (text : List Char) : Bool :=
  startsWithDigit text || (text.head? == some '.' && startsWithDigit (text.drop 1)) ||
    (text.head? == some 'e' && (text.drop 1).head?.any (fun c => c == '+' || c == '-') &&
      startsWithDigit (text.drop 2))

section Digits

variable {a b u w : List Char}

theorem digits_append_inj (ha : ∀ c ∈ a, c.isDigit = true) (hb : ∀ c ∈ b, c.isDigit = true)
    (hu : startsWithDigit u = false) (hw : startsWithDigit w = false) (h : a ++ u = b ++ w) :
    a = b ∧ u = w := by
  have hstop : ∀ {u : List Char}, startsWithDigit u = false → ∀ c ∈ u.head?,
      c.isDigit = false := by
    intro u hu c hc
    rw [startsWithDigit, hc] at hu
    exact hu
  exact Text.append_inj_of_stop ha hb (hstop hu) (hstop hw) h

theorem isDigit_of_mem_toDigits {n : Nat} {c : Char} (h : c ∈ Nat.toDigits 10 n) :
    c.isDigit = true :=
  Nat.isDigit_of_mem_toDigits (by decide) (by decide) h

theorem startsWithDigit_append {rest : List Char} (hne : a ≠ [])
    (ha : ∀ c ∈ a, c.isDigit = true) : startsWithDigit (a ++ rest) = true := by
  obtain ⟨c, a, rfl⟩ := List.exists_cons_of_ne_nil hne
  exact ha c List.mem_cons_self

theorem toDigits_inj {m n : Nat} (h : Nat.toDigits 10 m = Nat.toDigits 10 n) : m = n := by
  have hvalue := congrArg (Nat.ofDigitChars 10 · 0) h
  simp only [Nat.ofDigitChars_ten_toDigits] at hvalue
  exact hvalue

theorem toDigits_append_inj {m n : Nat} (hu : startsWithDigit u = false)
    (hw : startsWithDigit w = false) (h : Nat.toDigits 10 m ++ u = Nat.toDigits 10 n ++ w) :
    m = n ∧ u = w := by
  obtain ⟨hdigits, hrest⟩ := digits_append_inj (fun _ => isDigit_of_mem_toDigits)
    (fun _ => isDigit_of_mem_toDigits) hu hw h
  exact ⟨toDigits_inj hdigits, hrest⟩

theorem startsWithDigit_of_goesOn (h : goesOn u = false) : startsWithDigit u = false := by
  rw [goesOn, Bool.or_eq_false_iff, Bool.or_eq_false_iff] at h
  exact h.1.1

-- A point and a digit make a fraction.
theorem goesOn_point (hne : a ≠ []) (ha : ∀ c ∈ a, c.isDigit = true) :
    goesOn ('.' :: (a ++ u)) = true := by
  rw [goesOn, List.drop_succ_cons, List.drop_zero, startsWithDigit_append hne ha]
  rfl

theorem exponentText_eq_cons (n : Int) :
    Number.exponentText n = 'e' :: (if n < 0 then '-' else '+') :: Nat.toDigits 10 n.natAbs := by
  unfold Number.exponentText
  split <;> rfl

theorem goesOn_exponentText (n : Int) : goesOn (Number.exponentText n ++ u) = true := by
  have hsign : ((if n < 0 then '-' else '+') == '+' || (if n < 0 then '-' else '+') == '-') =
      true := by
    split <;> rfl
  rw [goesOn, exponentText_eq_cons, List.cons_append, List.cons_append, List.drop_succ_cons,
    List.drop_succ_cons, List.drop_zero, List.drop_succ_cons, List.drop_zero,
    startsWithDigit_append Nat.toDigits_ne_nil fun _ => isDigit_of_mem_toDigits]
  simp [hsign]

theorem exponentText_append_inj {m n : Int} (hu : startsWithDigit u = false)
    (hw : startsWithDigit w = false)
    (h : Number.exponentText m ++ u = Number.exponentText n ++ w) : m = n ∧ u = w := by
  rw [exponentText_eq_cons, exponentText_eq_cons] at h
  obtain ⟨hsign, hdigits⟩ := List.cons.inj (List.cons.inj h).2
  obtain ⟨habs, hrest⟩ := toDigits_append_inj hu hw hdigits
  refine ⟨?_, hrest⟩
  -- The signs are the same, and so are the distances from zero.
  by_cases hm : m < 0
  · by_cases hn : n < 0
    · omega
    · rw [if_pos hm, if_neg hn] at hsign
      exact absurd hsign (by decide)
  · by_cases hn : n < 0
    · rw [if_neg hm, if_pos hn] at hsign
      exact absurd hsign (by decide)
    · omega

end Digits

namespace Numeral

/-! ## Parts of a text -/

def signText (negative : Bool) : List Char := if negative then ['-'] else []

def fractionText : Option (List Char) → List Char
  | some digits => '.' :: digits
  | none => []

def exponentText : Option Int → List Char
  | some n => Number.exponentText n
  | none => []

def text (n : Numeral) : List Char :=
  signText n.negative ++ (n.whole ++ (fractionText n.fraction ++ exponentText n.exponent))

/-- Whole part and fraction consist of digits, one at least. -/
structure WellFormed (n : Numeral) : Prop where
  whole_ne_nil : n.whole ≠ []
  whole : ∀ c ∈ n.whole, c.isDigit = true
  fraction_ne_nil : ∀ digits ∈ n.fraction, digits ≠ []
  fraction : ∀ digits ∈ n.fraction, ∀ c ∈ digits, c.isDigit = true

section Reading

variable {u w : List Char}

theorem startsWithDigit_exponentText {exponent : Option Int} (hu : goesOn u = false) :
    startsWithDigit (exponentText exponent ++ u) = false := by
  cases exponent with
  | none => exact startsWithDigit_of_goesOn hu
  | some n =>
    rw [exponentText, exponentText_eq_cons]
    rfl

theorem startsWithDigit_fractionText {fraction : Option (List Char)} {exponent : Option Int}
    (hu : goesOn u = false) :
    startsWithDigit (fractionText fraction ++ (exponentText exponent ++ u)) = false := by
  cases fraction with
  | none => exact startsWithDigit_exponentText hu
  | some digits => rfl

theorem exponentText_inj {m n : Option Int} (hu : goesOn u = false) (hw : goesOn w = false)
    (h : exponentText m ++ u = exponentText n ++ w) : m = n ∧ u = w := by
  cases m with
  | none =>
    cases n with
    | none => exact ⟨rfl, h⟩
    | some n =>
      rw [show u = Number.exponentText n ++ w from h, goesOn_exponentText] at hu
      exact absurd hu (by decide)
  | some m =>
    cases n with
    | none =>
      rw [show w = Number.exponentText m ++ u from h.symm, goesOn_exponentText] at hw
      exact absurd hw (by decide)
    | some n =>
      obtain ⟨hmn, hrest⟩ := exponentText_append_inj (startsWithDigit_of_goesOn hu)
        (startsWithDigit_of_goesOn hw) h
      exact ⟨congrArg some hmn, hrest⟩

-- A fraction cannot be mistaken for what stands behind a number without one.
theorem point_ne_exponentText {digits rest : List Char} {exponent : Option Int}
    (hne : digits ≠ []) (hdigits : ∀ c ∈ digits, c.isDigit = true) (hu : goesOn u = false) :
    exponentText exponent ++ u ≠ '.' :: (digits ++ rest) := by
  intro h
  cases exponent with
  | none =>
    rw [show u = '.' :: (digits ++ rest) from h, goesOn_point hne hdigits] at hu
    exact absurd hu (by decide)
  | some n =>
    rw [exponentText, exponentText_eq_cons] at h
    exact absurd (List.cons.inj h).1 (by decide)

theorem fractionText_inj {f g : Option (List Char)} {m n : Option Int}
    (hf : ∀ digits ∈ f, digits ≠ [] ∧ ∀ c ∈ digits, c.isDigit = true)
    (hg : ∀ digits ∈ g, digits ≠ [] ∧ ∀ c ∈ digits, c.isDigit = true) (hu : goesOn u = false)
    (hw : goesOn w = false)
    (h : fractionText f ++ (exponentText m ++ u) = fractionText g ++ (exponentText n ++ w)) :
    f = g ∧ m = n ∧ u = w := by
  cases f with
  | none =>
    cases g with
    | none => exact ⟨rfl, exponentText_inj hu hw h⟩
    | some digits =>
      exact absurd h (point_ne_exponentText (hg digits rfl).1 (hg digits rfl).2 hu)
  | some digits =>
    cases g with
    | none => exact absurd h.symm (point_ne_exponentText (hf digits rfl).1 (hf digits rfl).2 hw)
    | some others =>
      obtain ⟨hdigits, hrest⟩ := digits_append_inj (hf digits rfl).2 (hg others rfl).2
        (startsWithDigit_exponentText hu) (startsWithDigit_exponentText hw) (List.cons.inj h).2
      exact ⟨congrArg some hdigits, exponentText_inj hu hw hrest⟩

theorem minus_ne_digits {digits rest others : List Char} (hne : digits ≠ [])
    (hdigits : ∀ c ∈ digits, c.isDigit = true) : '-' :: others ≠ digits ++ rest := by
  intro h
  have hstart := @startsWithDigit_append digits rest hne hdigits
  rw [← h] at hstart
  exact Bool.false_ne_true hstart

theorem signText_inj {s t : Bool} {a b x y : List Char} (ha : a ≠ [])
    (ha' : ∀ c ∈ a, c.isDigit = true) (hb : b ≠ []) (hb' : ∀ c ∈ b, c.isDigit = true)
    (h : signText s ++ (a ++ x) = signText t ++ (b ++ y)) : s = t ∧ a ++ x = b ++ y := by
  cases s with
  | false =>
    cases t with
    | false => exact ⟨rfl, h⟩
    | true =>
      have hminus : '-' :: (b ++ y) = a ++ x := h.symm
      exact absurd hminus (minus_ne_digits ha ha')
  | true =>
    cases t with
    | false =>
      have hminus : '-' :: (a ++ x) = b ++ y := h
      exact absurd hminus (minus_ne_digits hb hb')
    | true => exact ⟨rfl, (List.cons.inj h).2⟩

theorem text_append_inj {m n : Numeral} (hm : m.WellFormed) (hn : n.WellFormed)
    (hu : goesOn u = false) (hw : goesOn w = false) (h : m.text ++ u = n.text ++ w) :
    m = n ∧ u = w := by
  simp only [text, List.append_assoc] at h
  -- The parts are read off one after the other, each up to where the next one begins.
  obtain ⟨hnegative, hunsigned⟩ :=
    signText_inj hm.whole_ne_nil hm.whole hn.whole_ne_nil hn.whole h
  obtain ⟨hwhole, hafter⟩ := digits_append_inj hm.whole hn.whole
    (startsWithDigit_fractionText hu) (startsWithDigit_fractionText hw) hunsigned
  obtain ⟨hfraction, hexponent, hrest⟩ := fractionText_inj
    (fun digits hd => ⟨hm.fraction_ne_nil digits hd, hm.fraction digits hd⟩)
    (fun digits hd => ⟨hn.fraction_ne_nil digits hd, hn.fraction digits hd⟩) hu hw hafter
  cases m
  cases n
  cases hnegative
  cases hwhole
  cases hfraction
  cases hexponent
  exact ⟨rfl, hrest⟩

end Reading

/-! ## The number that is written -/

/-- The units of the binary number nearest to what is written without the sign. -/
def units (n : Numeral) : Nat :=
  let fraction := n.fraction.getD []
  unitsOf (value (n.whole ++ fraction)) (n.exponent.getD 0 - fraction.length)

/-- The parts that a decimal is laid out in. -/
def ofDigits (negative : Bool) (d : Digits) : Numeral :=
  if d.digits.isEmpty then ⟨negative, ['0'], some ['0'], none⟩
  else if -5 < d.point ∧ d.point ≤ 16 then
    if d.point ≤ 0 then
      ⟨negative, ['0'], some (List.replicate d.point.natAbs '0' ++ d.digits), none⟩
    else if (d.digits.length : Int) ≤ d.point then
      ⟨negative, d.digits ++ List.replicate (d.point - d.digits.length).natAbs '0',
        some ['0'], none⟩
    else ⟨negative, d.digits.take d.point.natAbs, some (d.digits.drop d.point.natAbs), none⟩
  else
    ⟨negative, d.digits.take 1,
      if (d.digits.drop 1).isEmpty then none else some (d.digits.drop 1), some (d.point - 1)⟩

theorem text_ofDigits (negative : Bool) (d : Digits) :
    (ofDigits negative d).text = signText negative ++ Number.layout d := by
  unfold ofDigits Number.layout
  by_cases hempty : d.digits.isEmpty = true
  · simp [hempty, text, fractionText, exponentText]
  · by_cases hplaces : -5 < d.point ∧ d.point ≤ 16
    · by_cases hsmall : d.point ≤ 0
      · simp [hempty, hplaces, hsmall, text, fractionText, exponentText]
      · by_cases hlarge : (d.digits.length : Int) ≤ d.point
        · simp [hempty, hplaces, hsmall, hlarge, text, fractionText, exponentText]
        · simp [hempty, hplaces, hsmall, hlarge, text, fractionText, exponentText]
    · by_cases hsingle : (d.digits.drop 1).isEmpty = true
      · simp only [if_neg hempty, if_neg hplaces, if_pos hsingle, List.append_nil]
        rfl
      · simp only [if_neg hempty, if_neg hplaces, if_neg hsingle, List.append_assoc]
        rfl

/-- The ways to lay out digits, each with where it puts the point. -/
inductive LaidOut (d : Digits) (negative : Bool) : Numeral → Prop
  | nothing : d.digits = [] → LaidOut d negative ⟨negative, ['0'], some ['0'], none⟩
  | zerosBefore (k : Nat) : d.digits ≠ [] → d.point = -k →
      LaidOut d negative ⟨negative, ['0'], some (List.replicate k '0' ++ d.digits), none⟩
  | zerosBehind (k : Nat) : d.digits ≠ [] → d.point = d.digits.length + k →
      LaidOut d negative ⟨negative, d.digits ++ List.replicate k '0', some ['0'], none⟩
  | pointWithin (before behind : List Char) : before ≠ [] → behind ≠ [] →
      d.digits = before ++ behind → d.point = before.length →
      LaidOut d negative ⟨negative, before, some behind, none⟩
  | single (first : Char) : d.digits = [first] →
      LaidOut d negative ⟨negative, [first], none, some (d.point - 1)⟩
  | scientific (first : Char) (rest : List Char) : rest ≠ [] → d.digits = first :: rest →
      LaidOut d negative ⟨negative, [first], some rest, some (d.point - 1)⟩

theorem laidOut_ofDigits (negative : Bool) (d : Digits) :
    LaidOut d negative (ofDigits negative d) := by
  unfold ofDigits
  by_cases hempty : d.digits.isEmpty = true
  · rw [if_pos hempty]
    exact .nothing (List.isEmpty_iff.1 hempty)
  · have hne : d.digits ≠ [] := fun hnil => hempty (List.isEmpty_iff.2 hnil)
    rw [if_neg hempty]
    by_cases hplaces : -5 < d.point ∧ d.point ≤ 16
    · rw [if_pos hplaces]
      by_cases hsmall : d.point ≤ 0
      · rw [if_pos hsmall]
        exact .zerosBefore d.point.natAbs hne (by omega)
      · rw [if_neg hsmall]
        by_cases hlarge : (d.digits.length : Int) ≤ d.point
        · rw [if_pos hlarge]
          exact .zerosBehind (d.point - d.digits.length).natAbs hne (by omega)
        · rw [if_neg hlarge]
          -- Between the first digit and the last there is room for the point.
          have hbefore : (d.digits.take d.point.natAbs).length = d.point.natAbs := by
            rw [List.length_take]
            omega
          have hbehind : 0 < (d.digits.drop d.point.natAbs).length := by
            rw [List.length_drop]
            omega
          refine .pointWithin _ _ ?_ (List.length_pos_iff.1 hbehind)
            (List.take_append_drop _ _).symm (by omega)
          apply List.length_pos_iff.1
          omega
    · rw [if_neg hplaces]
      obtain ⟨first, rest, hdigits⟩ := List.exists_cons_of_ne_nil hne
      rw [hdigits]
      cases rest with
      | nil => exact .single first hdigits
      | cons second rest => exact .scientific first (second :: rest) (List.cons_ne_nil _ _) hdigits

theorem LaidOut.negative_eq {d : Digits} {negative : Bool} {n : Numeral}
    (h : LaidOut d negative n) : n.negative = negative := by
  cases h <;> rfl

-- A decimal shows that it is not an integer.
theorem LaidOut.fraction_or_exponent {d : Digits} {negative : Bool} {n : Numeral}
    (h : LaidOut d negative n) : n.fraction ≠ none ∨ n.exponent ≠ none := by
  cases h with
  | single first _ => exact .inr (Option.some_ne_none _)
  | nothing | zerosBefore | zerosBehind | pointWithin | scientific =>
    exact .inl (Option.some_ne_none _)

theorem LaidOut.wellFormed {d : Digits} {negative : Bool} {n : Numeral}
    (h : LaidOut d negative n) (hdigits : ∀ c ∈ d.digits, c.isDigit = true) : n.WellFormed := by
  -- Whatever the layout adds to the digits is zeros.
  have hzeros : ∀ k, ∀ c ∈ List.replicate k '0', c.isDigit = true := by
    intro k c hc
    rw [(List.mem_replicate.1 hc).2]
    rfl
  have hzero : ∀ c ∈ ['0'], c.isDigit = true := hzeros 1
  have happend : ∀ {a b : List Char}, (∀ c ∈ a, c.isDigit = true) →
      (∀ c ∈ b, c.isDigit = true) → ∀ c ∈ a ++ b, c.isDigit = true := by
    intro a b ha hb c hc
    rcases List.mem_append.1 hc with hc | hc
    · exact ha c hc
    · exact hb c hc
  have hsome : ∀ {digits : List Char} {Q : List Char → Prop}, Q digits →
      ∀ others ∈ some digits, Q others := by
    intro digits Q hQ others hothers
    exact Option.some.inj hothers ▸ hQ
  cases h with
  | nothing _ =>
    exact ⟨List.cons_ne_nil _ _, hzero, hsome (List.cons_ne_nil _ _), hsome hzero⟩
  | zerosBefore k hne _ =>
    have hfraction := happend (hzeros k) hdigits
    refine ⟨List.cons_ne_nil _ _, hzero, hsome ?_, hsome hfraction⟩
    exact List.append_ne_nil_of_right_ne_nil _ hne
  | zerosBehind k hne _ =>
    refine ⟨?_, happend hdigits (hzeros k), hsome (List.cons_ne_nil _ _), hsome hzero⟩
    exact List.append_ne_nil_of_left_ne_nil hne _
  | pointWithin before behind hbefore hbehind heq _ =>
    rw [heq] at hdigits
    exact ⟨hbefore, fun c hc => hdigits c (List.mem_append_left behind hc), hsome hbehind,
      hsome fun c hc => hdigits c (List.mem_append_right before hc)⟩
  | single first heq =>
    rw [heq] at hdigits
    exact ⟨List.cons_ne_nil _ _, hdigits, fun _ hnone => (nomatch hnone),
      fun _ hnone => (nomatch hnone)⟩
  | scientific first rest hrest heq =>
    rw [heq] at hdigits
    obtain ⟨hfirst, hdigits⟩ := List.forall_mem_cons.1 hdigits
    exact ⟨List.cons_ne_nil _ _, List.forall_mem_singleton.2 hfirst, hsome hrest, hsome hdigits⟩

/-- However the digits are laid out, they denote what they denoted. -/
theorem LaidOut.units_eq {d : Digits} {negative : Bool} {n : Numeral} (h : LaidOut d negative n) :
    n.units = d.units := by
  rw [Digits.units]
  cases h with
  | nothing hnil =>
    rw [hnil, Digits.value_nil, Digits.unitsOf_zero]
    exact Digits.unitsOf_zero _
  | zerosBefore k _ hpoint =>
    have hvalue : value ('0' :: (List.replicate k '0' ++ d.digits)) = value d.digits :=
      Digits.value_zeros_append d.digits (k + 1)
    have hexponent : (0 : Int) - (List.replicate k '0' ++ d.digits).length =
        d.point - d.digits.length := by
      rw [List.length_append, List.length_replicate]
      omega
    show unitsOf (value ('0' :: (List.replicate k '0' ++ d.digits)))
      (0 - (List.replicate k '0' ++ d.digits).length) = _
    rw [hvalue, hexponent]
  | zerosBehind k _ hpoint =>
    have hzeros : d.digits ++ List.replicate k '0' ++ ['0'] =
        d.digits ++ List.replicate (k + 1) '0' := by
      rw [List.append_assoc, List.replicate_succ']
    have hexponent : (0 : Int) - 1 + (k + 1 : Nat) = d.point - d.digits.length := by
      omega
    show unitsOf (value (d.digits ++ List.replicate k '0' ++ ['0'])) (0 - 1) = _
    rw [hzeros, Digits.value_append_zeros, Digits.unitsOf_mul_tenPow, hexponent]
  | pointWithin before behind _ _ heq hpoint =>
    have hexponent : (0 : Int) - behind.length = d.point - d.digits.length := by
      rw [heq, List.length_append]
      omega
    show unitsOf (value (before ++ behind)) (0 - behind.length) = _
    rw [← heq, hexponent]
  | single first heq =>
    have hexponent : d.point - 1 - (0 : Nat) = d.point - d.digits.length := by
      rw [heq, List.length_singleton]
      omega
    show unitsOf (value [first]) (d.point - 1 - (0 : Nat)) = _
    rw [← heq, hexponent]
  | scientific first rest _ heq =>
    have hexponent : d.point - 1 - rest.length = d.point - d.digits.length := by
      rw [heq, List.length_cons]
      omega
    show unitsOf (value (first :: rest)) (d.point - 1 - rest.length) = _
    rw [← heq, hexponent]

end Numeral

namespace Number

/-- The parts of a number's text. -/
def numeral : Number → Numeral
  | .integer value _ => ⟨decide (value < 0), Nat.toDigits 10 value.natAbs, none, none⟩
  | .decimal x => .ofDigits x.negative (Digits.shortest x.units)

theorem laidOut_numeral (x : Binary) :
    Numeral.LaidOut (Digits.shortest x.units) x.negative (numeral (.decimal x)) :=
  Numeral.laidOut_ofDigits _ _

theorem toList_render (n : Number) : n.render.toList = n.numeral.text := by
  cases n with
  | integer value _ =>
    rw [render, numeral, Numeral.text, Numeral.fractionText, Numeral.exponentText,
      List.append_nil, List.append_nil]
    cases value with
    | ofNat m => exact Nat.toList_repr
    | negSucc m =>
      -- A minus sign is followed by the distance from zero.
      have hneg : decide (Int.negSucc m < 0) = true := decide_eq_true (Int.negSucc_lt_zero m)
      rw [hneg]
      show ("-" ++ (m + 1).repr).toList = '-' :: Nat.toDigits 10 (m + 1)
      rw [String.toList_append, Nat.toList_repr]
      rfl
  | decimal x =>
    rw [render, numeral, binaryText, String.toList_ofList, Numeral.text_ofDigits]
    rfl

theorem wellFormed_numeral (n : Number) : n.numeral.WellFormed := by
  cases n with
  | integer value _ =>
    exact ⟨Nat.toDigits_ne_nil, fun _ => isDigit_of_mem_toDigits,
      fun _ hnone => absurd hnone (by simp [numeral]),
      fun _ hnone => absurd hnone (by simp [numeral])⟩
  | decimal x =>
    exact (Numeral.laidOut_ofDigits _ _).wellFormed fun _ =>
      Digits.isDigit_of_mem_shortest x.onGrid

theorem numeral_injective {m n : Number} (h : m.numeral = n.numeral) : m = n := by
  cases m with
  | integer a _ =>
    cases n with
    | integer b _ =>
      have hsign : decide (a < 0) = decide (b < 0) := congrArg Numeral.negative h
      have habs : a.natAbs = b.natAbs := toDigits_inj (congrArg Numeral.whole h)
      have hneg : a < 0 ↔ b < 0 := decide_eq_decide.1 hsign
      have hab : a = b := by omega
      subst hab
      rfl
    | decimal y =>
      rcases (laidOut_numeral y).fraction_or_exponent with hpart | hpart
      · exact absurd (congrArg Numeral.fraction h).symm hpart
      · exact absurd (congrArg Numeral.exponent h).symm hpart
  | decimal x =>
    cases n with
    | integer b _ =>
      rcases (laidOut_numeral x).fraction_or_exponent with hpart | hpart
      · exact absurd (congrArg Numeral.fraction h) hpart
      · exact absurd (congrArg Numeral.exponent h) hpart
    | decimal y =>
      -- The shortest digits read back as the number they were taken from.
      have hunits := congrArg Numeral.units h
      rw [(laidOut_numeral x).units_eq, (laidOut_numeral y).units_eq,
        Digits.units_shortest x.onGrid, Digits.units_shortest y.onGrid] at hunits
      have hsign := congrArg Numeral.negative h
      rw [(laidOut_numeral x).negative_eq, (laidOut_numeral y).negative_eq] at hsign
      obtain ⟨negative, units, _, _⟩ := x
      obtain ⟨_, _, _, _⟩ := y
      cases hsign
      cases hunits
      rfl

/-- A number can be read off the beginning of a text that does not go on like a number. -/
theorem render_append_inj {m n : Number} {u w : List Char} (hu : goesOn u = false)
    (hw : goesOn w = false) (h : m.render.toList ++ u = n.render.toList ++ w) :
    m = n ∧ u = w := by
  rw [toList_render, toList_render] at h
  obtain ⟨hnumeral, hrest⟩ :=
    Numeral.text_append_inj m.wellFormed_numeral n.wellFormed_numeral hu hw h
  exact ⟨numeral_injective hnumeral, hrest⟩

theorem render_injective {m n : Number} (h : m.render = n.render) : m = n :=
  (render_append_inj (u := []) (w := []) rfl rfl (by rw [h])).1

/-- The characters that numbers are written with. -/
def IsMark (c : Char) : Prop := c.isDigit = true ∨ c ∈ ['-', '+', '.', 'e']

theorem isMark_of_mem_render {n : Number} {c : Char} (h : c ∈ n.render.toList) : IsMark c := by
  have hwell := n.wellFormed_numeral
  rw [toList_render, Numeral.text, List.mem_append, List.mem_append, List.mem_append] at h
  -- Each part of the text has characters of its own.
  rcases h with hsign | hwhole | hfraction | hexponent
  · right
    rw [Numeral.signText] at hsign
    split at hsign
    · rw [List.mem_singleton.1 hsign]
      decide
    · exact absurd hsign List.not_mem_nil
  · exact .inl (hwell.whole c hwhole)
  · cases hf : n.numeral.fraction with
    | none =>
      rw [hf] at hfraction
      exact absurd hfraction List.not_mem_nil
    | some digits =>
      rw [hf, Numeral.fractionText, List.mem_cons] at hfraction
      rcases hfraction with rfl | hmem
      · exact .inr (by decide)
      · exact .inl (hwell.fraction digits hf c hmem)
  · cases he : n.numeral.exponent with
    | none =>
      rw [he] at hexponent
      exact absurd hexponent List.not_mem_nil
    | some k =>
      rw [he, Numeral.exponentText, exponentText_eq_cons, List.mem_cons, List.mem_cons]
        at hexponent
      rcases hexponent with rfl | rfl | hdigit
      · exact .inr (by decide)
      · right
        split <;> decide
      · exact .inl (isDigit_of_mem_toDigits hdigit)

-- A number is not empty, and begins with one of its characters.
theorem exists_render_eq_cons (n : Number) :
    ∃ c rest, n.render.toList = c :: rest ∧ IsMark c := by
  have hne : n.render.toList ≠ [] := by
    intro hnil
    rw [toList_render, Numeral.text, List.append_eq_nil_iff, List.append_eq_nil_iff] at hnil
    exact n.wellFormed_numeral.whole_ne_nil hnil.2.1
  obtain ⟨c, rest, htext⟩ := List.exists_cons_of_ne_nil hne
  exact ⟨c, rest, htext, isMark_of_mem_render (htext ▸ List.mem_cons_self)⟩

theorem render_append_ne_cons {n : Number} {c : Char} {u w : List Char} (hc : ¬ IsMark c) :
    n.render.toList ++ u ≠ c :: w := by
  intro h
  obtain ⟨d, rest, htext, hd⟩ := n.exists_render_eq_cons
  rw [htext, List.cons_append] at h
  exact hc ((List.cons.inj h).1 ▸ hd)

end Number

end RecordQuery.Json
