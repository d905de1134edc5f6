import RecordQuery.Json.Reader.Basic

/-!
# Scalars in JSON text

How strings and numbers are spelled.
-/

namespace RecordQuery.Json.Reader

open Reading

/-!
## Strings

The bytes of a string with its escapes resolved. A pair of escapes may stand for one character
outside the basic plane; half of a pair stands for nothing.
-/

def bytesOfCode (code : Nat) : List UInt8 := (Char.ofNat code).toString.toUTF8.toList

def hexEscape (s : List UInt8) : Except Fault (Nat × Left UInt8 s.length) :=
  match s.take 4 with
  | [a, b, c, d] =>
    match hexValue? [a, b, c, d] with
    | some code => .ok (code, .drop 4 s)
    | none => .error .invalidEscape
  | _ => .error .endInString

def lowSurrogate (high : Nat) (s : List UInt8) : Except Fault (List UInt8 × Left UInt8 s.length) :=
  match s with
  | [] => .error .endInString
  | b :: afterBackslash =>
    if chr b ≠ '\\' then .error .unexpectedEndOfHexEscape
    else
      match afterBackslash with
      | [] => .error .endInString
      | u :: digits =>
        if chr u ≠ 'u' then .error .unexpectedEndOfHexEscape
        else
          match hexEscape digits with
          | .error fault => .error fault
          | .ok (low, left) =>
            if 0xDC00 ≤ low ∧ low ≤ 0xDFFF then
              .ok (bytesOfCode (0x10000 + (high - 0xD800) * 0x400 + (low - 0xDC00)),
                .cons b (.cons u left))
            else .error .loneSurrogate

def escape (s : List UInt8) : Except Fault (List UInt8 × Left UInt8 s.length) :=
  match s with
  | [] => .error .endInString
  | b :: rest =>
    let single (c : Char) : Except Fault (List UInt8 × Left UInt8 (b :: rest).length) :=
      .ok ([c.toUInt8], .tail b rest)
    match chr b with
    | '"' => single '"'
    | '\\' => single '\\'
    | '/' => single '/'
    | 'b' => single '\x08'
    | 'f' => single '\x0c'
    | 'n' => single '\n'
    | 'r' => single '\r'
    | 't' => single '\t'
    | 'u' =>
      match hexEscape rest with
      | .error fault => .error fault
      | .ok (code, left) =>
        if 0xDC00 ≤ code ∧ code ≤ 0xDFFF then .error .loneSurrogate
        else if 0xD800 ≤ code ∧ code ≤ 0xDBFF then
          match lowSurrogate code left.1 with
          | .error fault => .error fault
          | .ok (bytes, final) => .ok (bytes, .cons b (left.below final))
        else .ok (bytesOfCode code, .cons b left)
    | _ => .error .invalidEscape

/-- The bytes up to the closing quote, put in front of `read` in reverse. -/
def stringBytes (bound : Nat) (read : List UInt8) (s : List UInt8) (h : s.length ≤ bound) :
    Except Fault (List UInt8 × Rest UInt8 bound) :=
  match s with
  | [] => .error .endInString
  | b :: rest =>
    match chr b with
    | '"' => .ok (read, ⟨rest, h⟩)
    | '\\' =>
      match escape rest with
      | .error fault => .error fault
      | .ok (bytes, ⟨left, hleft⟩) =>
        stringBytes bound (bytes.reverse ++ read) left (length_le_of_le_of_cons hleft h)
    | c =>
      if c.toNat < 0x20 then .error .controlCharacter
      else stringBytes bound (b :: read) rest (length_le_of_cons h)
termination_by s.length
decreasing_by
  · exact Nat.lt_succ_of_le hleft
  · exact Nat.lt_succ_self _

def bytesOfString (s : List UInt8) : Except Fault (List UInt8 × Rest UInt8 s.length) :=
  stringBytes s.length [] s (length_le_self s)

def string : Reader String := fun s =>
  match bytesOfString s with
  | .error fault => .error fault
  | .ok (bytes, rest) =>
    match String.fromUTF8? ⟨bytes.reverse.toArray⟩ with
    | some text => .ok (text, rest)
    | none => .error .invalidCodePoint

/-!
## Numbers

The digits of a number form a significand of 64 bits. Digits of the whole part that no longer fit
raise the exponent; digits of the fraction are dropped from the first that does not fit.
-/

/-- Appends digits while the significand stays below 2⁶⁴; also the digits left over. -/
def absorb (significand : Nat) : List UInt8 → Nat × List UInt8
  | [] => (significand, [])
  | d :: digits =>
    let next := significand * 10 + digitValue d
    if next < 0x10000000000000000 then absorb next digits else (significand, d :: digits)

/-- A number as written: the digits before and after the point, and the power of ten. -/
structure Numeral where
  negative : Bool
  whole : List UInt8
  fraction : Option (List UInt8)
  exponent : Option Int

namespace Numeral

/-- Exact for an integer that needs no rounding, and scaled once otherwise. -/
def number? (n : Numeral) : Option Number :=
  let (significand, surplus) := absorb 0 n.whole
  match n.fraction, n.exponent, surplus with
  | none, none, [] => Number.ofDigits? n.negative significand
  | fraction, exponent, surplus =>
    let digits := fraction.getD []
    -- Each fraction digit that is kept makes the power of ten one smaller.
    let (significand, dropped) := absorb significand digits
    let places : Int := (digits.length - dropped.length : Nat)
    Number.ofParts? n.negative significand (surplus.length - places + exponent.getD 0)

end Numeral

def digits (s : List UInt8) : Except Fault (List UInt8 × Left UInt8 s.length) :=
  match s.takeWhile isDigit with
  | [] => .error (if s.isEmpty then .endInValue else .invalidNumber)
  | read => .ok (read, .dropWhile isDigit s)

def fraction (s : List UInt8) : Except Fault (Option (List UInt8) × Left UInt8 s.length) :=
  match s with
  | [] => .ok (none, .all [])
  | b :: rest =>
    if chr b = '.' then
      match digits rest with
      | .error fault => .error fault
      | .ok (read, left) => .ok (some read, .cons b left)
    else .ok (none, .all (b :: rest))

def exponentSign (s : List UInt8) : Bool × Left UInt8 s.length :=
  match s with
  | [] => (false, .all [])
  | b :: rest =>
    match chr b with
    | '+' => (false, .tail b rest)
    | '-' => (true, .tail b rest)
    | _ => (false, .all (b :: rest))

def exponent (s : List UInt8) : Except Fault (Option Int × Left UInt8 s.length) :=
  match s with
  | [] => .ok (none, .all [])
  | b :: rest =>
    if chr b = 'e' ∨ chr b = 'E' then
      let (negative, afterSign) := exponentSign rest
      match digits afterSign.1 with
      | .error fault => .error fault
      | .ok (read, left) =>
        let magnitude : Int := read.foldl (fun n d => 10 * n + digitValue d) (0 : Nat)
        .ok (some (if negative then -magnitude else magnitude), .cons b (afterSign.below left))
    else .ok (none, .all (b :: rest))

def wholeDigits (s : List UInt8) : Except Fault (List UInt8 × Rest UInt8 s.length) :=
  match s with
  | [] => .error .endInValue
  | b :: rest =>
    if !isDigit b then .error .invalidNumber
    else if chr b = '0' then
      match rest with
      | [] => .ok ([b], .tail b [])
      | d :: more => if isDigit d then .error .invalidNumber else .ok ([b], .tail b (d :: more))
    else .ok (b :: rest.takeWhile isDigit, (Rest.tail b rest).below (.dropWhile isDigit rest))

def number (negative : Bool) : Reader Number := fun s =>
  match wholeDigits s with
  | .error fault => .error fault
  | .ok (whole, afterWhole) =>
    match fraction afterWhole.1 with
    | .error fault => .error fault
    | .ok (fraction, afterFraction) =>
      match exponent afterFraction.1 with
      | .error fault => .error fault
      | .ok (exponent, left) =>
        match Numeral.number? ⟨negative, whole, fraction, exponent⟩ with
        | some number => .ok (number, afterWhole.below (afterFraction.below left))
        | none => .error .numberOutOfRange

end RecordQuery.Json.Reader
