import RecordQuery.Decimal.Binary
import RecordQuery.Entries

/-!
# JSON values

A number keeps the kind it was written in: integers of 64 bits are exact, everything else is a
binary floating-point number. An object lists its members in key order, each key once.
-/

namespace RecordQuery.Json

open Decimal (Binary Digits)

/-! ## Numbers -/

/-- Integers reach from the least signed to the greatest unsigned number of 64 bits. -/
inductive Number where
  | integer (value : Int) (inRange : -0x8000000000000000 ≤ value ∧ value < 0x10000000000000000)
  | decimal (value : Binary)
deriving DecidableEq

namespace Number

instance : Inhabited Number := ⟨.integer 0 (by decide)⟩

def zero : Number := .integer 0 (by decide)

def toBinary : Number → Binary
  | .integer value inRange => Binary.ofInt value (by omega)
  | .decimal value => value

def powerOfTen? (n : Nat) : Option Binary := Binary.ofQuotient? false (Decimal.tenPow n) 1

def greatestPower : Nat := 308

/-- Division by the greatest power of ten, up to `count` times, ending early at zero. -/
def divideOut? (x : Binary) : Nat → Option Binary
  | 0 => some x
  | count + 1 =>
    if x.isZero then some x
    else
      match (powerOfTen? greatestPower).bind x.div? with
      | none => none
      | some y => divideOut? y count

def scaleDown? (x : Binary) (n : Nat) : Option Binary := do
  let count := (n - 1) / greatestPower
  let y ← divideOut? x count
  (powerOfTen? (n - count * greatestPower)).bind y.div?

def scaleUp? (x : Binary) (n : Nat) : Option Binary :=
  if n ≤ greatestPower then (powerOfTen? n).bind x.mul?
  else if x.isZero then some x
  else none

/-- The number written with the digits `significand` and the power `exponent`: one conversion and
one multiplication or division, each rounded. Nothing if it is too large. -/
def ofParts? (negative : Bool) (significand : Nat) (exponent : Int) : Option Number := do
  let x ← Binary.ofQuotient? false significand 1
  let y ← if exponent < 0 then scaleDown? x exponent.natAbs else scaleUp? x exponent.natAbs
  return .decimal { y with negative := negative }

def ofDigits? (negative : Bool) (significand : Nat) : Option Number :=
  if negative then
    if h : 0 < significand ∧ significand ≤ 0x8000000000000000 then
      some (.integer (-significand) (by omega))
    else ofParts? true significand 0
  else if h : significand < 0x10000000000000000 then some (.integer significand (by omega))
  else ofParts? false significand 0

def exponentText (n : Int) : List Char :=
  (if n < 0 then ['e', '-'] else ['e', '+']) ++ Nat.toDigits 10 n.natAbs

/-- Numbers from `0.00001` up to sixteen places are written out, always with a fraction; others
have one digit before the point and an exponent. -/
def layout (d : Digits) : List Char :=
  let count : Int := d.digits.length
  if d.digits.isEmpty then ['0', '.', '0']
  else if -5 < d.point ∧ d.point ≤ 16 then
    -- Zeros stand between the point and the digits, or between the digits and the point, or the
    -- point stands among the digits.
    if d.point ≤ 0 then '0' :: '.' :: List.replicate d.point.natAbs '0' ++ d.digits
    else if count ≤ d.point then
      d.digits ++ List.replicate (d.point - count).natAbs '0' ++ ['.', '0']
    else d.digits.take d.point.natAbs ++ '.' :: d.digits.drop d.point.natAbs
  else
    let fraction := d.digits.drop 1
    d.digits.take 1 ++ (if fraction.isEmpty then [] else '.' :: fraction) ++
      exponentText (d.point - 1)

def binaryText (x : Binary) : String :=
  String.ofList ((if x.negative then ['-'] else []) ++ layout (Digits.shortest x.units))

def render : Number → String
  | .integer value _ => toString value
  | .decimal value => binaryText value

end Number

/-! ## Values -/

inductive Value where
  | null
  | bool (value : Bool)
  | number (value : Number)
  | string (value : String)
  | array (items : List Value)
  | object (members : List (String × Value))

namespace Value

instance : Inhabited Value := ⟨.null⟩

/-- The object with these members; of members with one key the last counts. -/
def ofMembers (members : List (String × Value)) : Value := .object (Entries.ofList members)

def asString? : Value → Option String
  | .string value => some value
  | _ => none

end Value

end RecordQuery.Json
