import RecordQuery.Decimal.Binary
import RecordQuery.Text.Pieces
import RecordQuery.Toml.Table

/-!
# TOML words

Values that are written as one word: booleans, numbers and dates. Digits may be grouped by single
underscores between them. The form of a word decides whether it is a number; what the number is may
stay open.
-/

namespace RecordQuery.Toml

/-- A word without its underscores, each of which stands between two digits or behind a sign that is
alone in front of the first one. -/
def ungroup? (isDigit : Char → Bool) (word : List Char) : Option (List Char) :=
  let groups := Text.pieces '_' word
  let opens := groups.tail.all fun group => group.head?.any isDigit
  let closes := groups.dropLast.all fun group => group.length == 1 || group.getLast?.any isDigit
  if opens && closes then some groups.flatten else none

def isBinaryDigit (c : Char) : Bool := c == '0' || c == '1'

def isOctalDigit (c : Char) : Bool := '0' ≤ c && c ≤ '7'

def isHexDigit (c : Char) : Bool := c.isDigit || ('a' ≤ c && c ≤ 'f') || ('A' ≤ c && c ≤ 'F')

def digitValue (c : Char) : Nat :=
  if c.isDigit then c.toNat - '0'.toNat
  else if 'a' ≤ c then c.toNat - 'a'.toNat + 10
  else c.toNat - 'A'.toNat + 10

def natOfDigits (base : Nat) (digits : List Char) : Nat :=
  digits.foldl (fun n c => base * n + digitValue c) 0

def splitSign (word : List Char) : Bool × List Char :=
  match word with
  | '-' :: rest => (true, rest)
  | '+' :: rest => (false, rest)
  | _ => (false, word)

def hasNeedlessZero (number : List Char) : Bool :=
  number.head? == some '0' && (number.takeWhile fun c => c.isDigit || c == '_').length != 1

def decimalNat? (digits : List Char) : Option Nat :=
  if !digits.isEmpty && digits.all Char.isDigit then some (natOfDigits 10 digits) else none

def decimalInt? (text : List Char) : Option Int :=
  let (negative, digits) := splitSign text
  (decimalNat? digits).map fun n => if negative then -(n : Int) else n

/-- An integer behind the prefix that tells its base. Without any digits it has no value. -/
def prefixedInteger? (base : Nat) (isDigit : Char → Bool) (word : List Char) : Option Value :=
  if word.all fun c => isDigit c || c == '_' then
    (ungroup? isDigit word).map fun digits =>
      .integer (if digits.isEmpty then none else some (natOfDigits base digits))
  else none

/-- An integer without such a prefix, of which only the start is known to be decimal. Where the
groups behind it are not, it has no value; around underscores hexadecimal digits will do. -/
def plainInteger? (word : List Char) : Option Value :=
  if hasNeedlessZero (splitSign word).2 then none
  else (ungroup? isHexDigit word).map fun text => .integer (decimalInt? text)

def isFinite (digits : List Char) (exponent : Int) : Bool :=
  let digits := digits.dropWhile (· == '0')
  let point := digits.length + exponent
  -- Far from the greatest number the place of the point decides.
  if digits.isEmpty || point < -400 then true
  else if 400 < point then false
  else
    let n := natOfDigits 10 digits
    (if exponent < 0 then Decimal.Binary.ofQuotient? false n (Decimal.tenPow exponent.natAbs)
      else Decimal.Binary.ofQuotient? false (n * Decimal.tenPow exponent.natAbs) 1).isSome

def cut (p : Char → Bool) (word : List Char) : List Char × Option (List Char) :=
  match word.dropWhile (!p ·) with
  | [] => (word, none)
  | _ :: rest => (word.takeWhile (!p ·), some rest)

def float? (word : List Char) : Option Bool :=
  if hasNeedlessZero (splitSign word).2 then none
  else do
    let (_, text) := splitSign (← ungroup? Char.isDigit word)
    let (mantissa, power) := cut (fun c => c == 'e' || c == 'E') text
    let (whole, fraction) := cut (· == '.') mantissa
    let _ ← decimalNat? whole
    let fraction ← match fraction with
      | some digits => (decimalNat? digits).map fun _ => digits
      | none => some []
    let exponent ← match power with
      | some power => decimalInt? power
      | none => some 0
    return isFinite (whole ++ fraction) (exponent - fraction.length)

def isSpecialFloat (word : List Char) : Bool :=
  let (_, name) := splitSign word
  name == ['i', 'n', 'f'] || name == ['n', 'a', 'n']

def fixedDigits? (count : Nat) (word : List Char) : Option (Nat × List Char) :=
  let digits := word.take count
  if digits.length == count && digits.all Char.isDigit then
    some (natOfDigits 10 digits, word.drop count)
  else none

def expect? (c : Char) (word : List Char) : Option (List Char) :=
  match word with
  | d :: rest => if c = d then some rest else none
  | [] => none

def isLeapYear (year : Nat) : Bool := year % 4 == 0 && (year % 100 != 0 || year % 400 == 0)

def daysInMonth (year month : Nat) : Nat :=
  if month == 2 then (if isLeapYear year then 29 else 28)
  else if [4, 6, 9, 11].contains month then 30
  else 31

def dateRest? (word : List Char) : Option (List Char) := do
  let (year, rest) ← fixedDigits? 4 word
  let (month, rest) ← fixedDigits? 2 (← expect? '-' rest)
  let (day, rest) ← fixedDigits? 2 (← expect? '-' rest)
  if 1 ≤ month && month ≤ 12 && 1 ≤ day && day ≤ daysInMonth year month then some rest else none

def secondsRest? (word : List Char) : Option (List Char) :=
  match word with
  | ':' :: rest => do
    let (second, rest) ← fixedDigits? 2 rest
    if 60 < second then none
    else
      match rest with
      | '.' :: fraction =>
        if (fraction.takeWhile Char.isDigit).isEmpty then none
        else some (fraction.dropWhile Char.isDigit)
      | _ => some rest
  | _ => some word

def timeRest? (word : List Char) : Option (List Char) := do
  let (hour, rest) ← fixedDigits? 2 word
  let (minute, rest) ← fixedDigits? 2 (← expect? ':' rest)
  if hour ≤ 23 && minute ≤ 59 then secondsRest? rest else none

def isOffset (word : List Char) : Bool :=
  match word with
  | ['Z'] | ['z'] => true
  | sign :: rest =>
    (sign == '+' || sign == '-') &&
      (do
        let (hour, rest) ← fixedDigits? 2 rest
        let (minute, rest) ← fixedDigits? 2 (← expect? ':' rest)
        return hour ≤ 23 && minute ≤ 59 && rest.isEmpty) == some true
  | [] => false

def isDate (word : List Char) : Bool :=
  match dateRest? word with
  | some [] => true
  | some (separator :: rest) =>
    (separator == 'T' || separator == 't' || separator == ' ') &&
      match timeRest? rest with
      | some [] => true
      | some offset => isOffset offset
      | none => false
  | none => timeRest? word == some []

/-- A decimal number or a date. What is behind the first digits tells which. -/
def decimalValue? (word : List Char) : Option Value :=
  let (_, number) := splitSign word
  match number.dropWhile Char.isDigit with
  | [] => if number.isEmpty then none else plainInteger? word
  | c :: rest =>
    if c == '-' || c == ':' then (if isDate word then some .date else none)
    else if (c :: rest).contains ' ' then none
    else if (c :: rest).any fun d => d == '.' || d == 'e' || d == 'E' then (float? word).map .float
    else if c == '_' then plainInteger? word
    else none

def wordValue? (word : List Char) : Option Value :=
  if word == ['t', 'r', 'u', 'e'] then some (.boolean true)
  else if word == ['f', 'a', 'l', 's', 'e'] then some (.boolean false)
  else if isSpecialFloat word then some (.float true)
  else
    match word with
    | '0' :: 'x' :: digits => prefixedInteger? 16 isHexDigit digits
    | '0' :: 'o' :: digits => prefixedInteger? 8 isOctalDigit digits
    | '0' :: 'b' :: digits => prefixedInteger? 2 isBinaryDigit digits
    | _ => decimalValue? word

end RecordQuery.Toml
