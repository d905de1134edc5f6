import RecordQuery.Json.Decode
import RecordQuery.Reading

/-!
# Faults in JSON text

Why a text cannot be read as JSON, or cannot be read as the JSON that is asked for.
-/

namespace RecordQuery.Json

inductive Fault where
  | endInValue
  | endInList
  | endInObject
  | endInString
  | expectedValue
  | expectedIdent
  | expectedColon
  | expectedCommaOrBracket
  | expectedCommaOrBrace
  | keyNotString
  | trailingComma
  | trailingCharacters
  | invalidNumber
  | numberOutOfRange
  | invalidEscape
  | controlCharacter
  | unexpectedEndOfHexEscape
  | loneSurrogate
  | invalidCodePoint
  | tooDeep
  | mismatch (cause : Mismatch)
  | unreadable (reason : String)
deriving DecidableEq

namespace Fault

def message : Fault → String
  | .endInValue => "EOF while parsing a value"
  | .endInList => "EOF while parsing a list"
  | .endInObject => "EOF while parsing an object"
  | .endInString => "EOF while parsing a string"
  | .expectedValue => "expected value"
  | .expectedIdent => "expected ident"
  | .expectedColon => "expected `:`"
  | .expectedCommaOrBracket => "expected `,` or `]`"
  | .expectedCommaOrBrace => "expected `,` or `\x7d`"
  | .keyNotString => "key must be a string"
  | .trailingComma => "trailing comma"
  | .trailingCharacters => "trailing characters"
  | .invalidNumber => "invalid number"
  | .numberOutOfRange => "number out of range"
  | .invalidEscape => "invalid escape"
  | .controlCharacter => "control character (\\u0000-\\u001F) found while parsing a string"
  | .unexpectedEndOfHexEscape => "unexpected end of hex escape"
  | .loneSurrogate => "lone leading surrogate in hex escape"
  | .invalidCodePoint => "invalid unicode code point"
  | .tooDeep => "recursion limit exceeded"
  | .mismatch cause => cause.message
  | .unreadable reason => reason

end Fault

/-!
## Bytes of JSON text

The pieces every reader of JSON text is made of: blanks, fixed words and the marks between the
parts of an object.
-/

/-- What a reader makes of its input: a value and a shorter rest, or a fault. -/
abbrev Reader (α : Type) := (s : List UInt8) → Except Fault (α × Rest UInt8 s.length)

namespace Reader

open Reading

/-- The ASCII character of a byte; bytes above are characters no rule names. -/
abbrev chr (b : UInt8) : Char := Char.ofUInt8 b

def isBlank (b : UInt8) : Bool :=
  match chr b with
  | ' ' | '\t' | '\n' | '\r' => true
  | _ => false

def skipBlanks (s : List UInt8) : List UInt8 := s.dropWhile isBlank

theorem length_skipBlanks_le (s : List UInt8) : (skipBlanks s).length ≤ s.length :=
  length_dropWhile_le _ _

theorem length_le_of_skipBlanks {s rest : List UInt8} {b : UInt8} (h : skipBlanks s = b :: rest) :
    (b :: rest).length ≤ s.length :=
  h ▸ length_skipBlanks_le s

theorem length_lt_of_skipBlanks {s rest : List UInt8} {b : UInt8} (h : skipBlanks s = b :: rest) :
    rest.length < s.length :=
  length_lt_of_dropWhile_eq_cons h

def isDigit (b : UInt8) : Bool := (chr b).isDigit

def digitValue (b : UInt8) : Nat := b.toNat - '0'.toNat

def hexValue? (digits : List UInt8) : Option Nat :=
  digits.foldlM (fun n b =>
    let c := chr b
    if c.isDigit then some (16 * n + (c.toNat - '0'.toNat))
    else if 'a' ≤ c ∧ c ≤ 'f' then some (16 * n + 10 + (c.toNat - 'a'.toNat))
    else if 'A' ≤ c ∧ c ≤ 'F' then some (16 * n + 10 + (c.toNat - 'A'.toNat))
    else none) 0

def restOfWord : List Char → (s : List UInt8) → Except Fault (Left UInt8 s.length)
  | [], s => .ok (.all s)
  | _ :: _, [] => .error .endInValue
  | c :: word, b :: rest =>
    if chr b = c then
      match restOfWord word rest with
      | .error fault => .error fault
      | .ok left => .ok (.cons b left)
    else .error .expectedIdent

def colon (s : List UInt8) : Except Fault (Rest UInt8 s.length) :=
  match h : skipBlanks s with
  | [] => .error .endInObject
  | b :: rest =>
    if chr b = ':' then .ok ⟨rest, length_lt_of_skipBlanks h⟩ else .error .expectedColon

end Reader

end RecordQuery.Json
