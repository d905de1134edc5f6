import RecordQuery.Json.Value
import RecordQuery.Text.Quoted

/-!
# Decoding values

What a JSON value stands for, or how it fails to be what is wanted.
-/

namespace RecordQuery.Json

/-! ## Mismatches -/

inductive Found where
  | null
  | boolean (value : Bool)
  | number (value : Number)
  | string (value : String)
  | sequence
  | map
deriving DecidableEq

namespace Found

def ofValue : Value → Found
  | .null => .null
  | .bool value => .boolean value
  | .number value => .number value
  | .string value => .string value
  | .array _ => .sequence
  | .object _ => .map

def message : Found → String
  | .null => "null"
  | .boolean value => s!"boolean `{value}`"
  | .number (.integer value inRange) => s!"integer `{(Number.integer value inRange).render}`"
  | .number (.decimal value) => s!"floating point `{Number.binaryText value}`"
  | .string value => "string " ++ Text.Quoted.encode value
  | .sequence => "sequence"
  | .map => "map"

end Found

inductive Mismatch where
  | wrongType (found : Found) (wanted : String)
  | wrongLength (length : Nat) (wanted : String)
  | missingField (field : String)
  | duplicateField (field : String)
  | unknownField (field : String) (known : List String)
  | unknownVariant (variant : String) (known : List String)
deriving DecidableEq

namespace Mismatch

private def marked (name : String) : String := "`" ++ name ++ "`"

def choices : List String → String
  | [a] => marked a
  | [a, b] => marked a ++ " or " ++ marked b
  | names => "one of " ++ ", ".intercalate (names.map marked)

def message : Mismatch → String
  | .wrongType found wanted => s!"invalid type: {found.message}, expected {wanted}"
  | .wrongLength length wanted => s!"invalid length {length}, expected {wanted}"
  | .missingField field => "missing field " ++ marked field
  | .duplicateField field => "duplicate field " ++ marked field
  | .unknownField field known => s!"unknown field {marked field}, expected {choices known}"
  | .unknownVariant variant known => s!"unknown variant {marked variant}, expected {choices known}"

end Mismatch

end RecordQuery.Json

namespace RecordQuery.Json.Value

/-! ## Decoding -/

variable {α : Type}

def mismatch (value : Value) (wanted : String) : Mismatch :=
  .wrongType (Found.ofValue value) wanted

def toText : Value → Except Mismatch String
  | .string text => .ok text
  | value => .error (value.mismatch "a string")

def toFlag : Value → Except Mismatch Bool
  | .bool flag => .ok flag
  | value => .error (value.mismatch "a boolean")

def toNumber : Value → Except Mismatch Number
  | .number n => .ok n
  | value => .error (value.mismatch "a JSON number")

def toFloat : Value → Except Mismatch Decimal.Binary
  | .number n => .ok n.toBinary
  | value => .error (value.mismatch "f64")

def toList (item : Value → Except Mismatch α) : Value → Except Mismatch (List α)
  | .array items => items.mapM item
  | value => .error (value.mismatch "a sequence")

def toOption (item : Value → Except Mismatch α) : Value → Except Mismatch (Option α)
  | .null => .ok none
  | value => (item value).map some

end RecordQuery.Json.Value
