import RecordQuery.Json.Value

/-!
# Writing JSON

The compact form has no blanks; the wide form puts each item on a line of its own, two spaces
further in than its container.
-/

namespace RecordQuery.Json

def escapeChar (c : Char) : List Char :=
  match c with
  | '"' => ['\\', '"']
  | '\\' => ['\\', '\\']
  | '\x08' => ['\\', 'b']
  | '\x0c' => ['\\', 'f']
  | '\n' => ['\\', 'n']
  | '\r' => ['\\', 'r']
  | '\t' => ['\\', 't']
  | _ =>
    if c.toNat < 0x20 then
      ['\\', 'u', '0', '0', Nat.digitChar (c.toNat / 16), Nat.digitChar (c.toNat % 16)]
    else [c]

def quote (text : String) : String :=
  String.ofList ('"' :: text.toList.flatMap escapeChar ++ ['"'])

namespace Value

mutual

def compact : Value → String
  | .null => "null"
  | .bool value => toString value
  | .number value => value.render
  | .string value => quote value
  | .array items => "[" ++ ",".intercalate (compactItems items) ++ "]"
  | .object members => "\x7b" ++ ",".intercalate (compactMembers members) ++ "\x7d"

def compactItems : List Value → List String
  | [] => []
  | item :: rest => compact item :: compactItems rest

def compactMembers : List (String × Value) → List String
  | [] => []
  | (key, value) :: rest => (quote key ++ ":" ++ compact value) :: compactMembers rest

end

def newline (level : Nat) : String := String.ofList ('\n' :: List.replicate (2 * level) ' ')

mutual

def wideAt (level : Nat) : Value → String
  | .null => "null"
  | .bool value => toString value
  | .number value => value.render
  | .string value => quote value
  | .array [] => "[]"
  | .array (item :: rest) =>
    "[" ++ newline (level + 1) ++
      ("," ++ newline (level + 1)).intercalate (wideItems (level + 1) (item :: rest)) ++
      newline level ++ "]"
  | .object [] => "\x7b\x7d"
  | .object (first :: rest) =>
    "\x7b" ++ newline (level + 1) ++
      ("," ++ newline (level + 1)).intercalate (wideMembers (level + 1) (first :: rest)) ++
      newline level ++ "\x7d"

def wideItems (level : Nat) : List Value → List String
  | [] => []
  | item :: rest => wideAt level item :: wideItems level rest

def wideMembers (level : Nat) : List (String × Value) → List String
  | [] => []
  | (key, value) :: rest => (quote key ++ ": " ++ wideAt level value) :: wideMembers level rest

end

def wide (value : Value) : String := wideAt 0 value

end Value

end RecordQuery.Json
