/-!
# Writing TOML

A string is written in the plainest of the four kinds that can hold it.
-/

namespace RecordQuery.Toml

inductive Quoting where
  | basic
  | literal
  | longBasic
  | longLiteral
deriving DecidableEq

def longestRun (c : Char) (text : List Char) : Nat :=
  (text.foldl (fun (current, longest) d =>
    let current := if d = c then current + 1 else 0
    (current, max longest current)) (0, 0)).2

def needsEscape (c : Char) : Bool := (c.toNat < 0x20 && c != '\t' && c != '\n') || c.toNat == 0x7F

def chooseQuoting (text : List Char) : Quoting :=
  let controls := text.any needsEscape
  let backslashes := text.contains '\\'
  let lines := text.contains '\n'
  let doubles := longestRun '"' text
  let singles := longestRun '\'' text
  if !controls && !backslashes && !lines && doubles == 0 then .basic
  else if !controls && !lines && singles == 0 then .literal
  else if !controls && !backslashes && doubles ≤ 2 then .longBasic
  else if !controls && singles ≤ 2 then .longLiteral
  else if lines then .longBasic
  else .basic

def hexDigit (n : Nat) : Char := (Nat.digitChar n).toUpper

/-- The characters of a basic string. Of a run of quotes each is escaped on one line, and each
third one over several lines; `run` counts those before that are not escaped. -/
def escapeBasic (long : Bool) (run : Nat) : List Char → List Char
  | [] => []
  | '"' :: rest =>
    if long && run < 2 then '"' :: escapeBasic long (run + 1) rest
    else '\\' :: '"' :: escapeBasic long 0 rest
  | c :: rest =>
    (match c with
      | '\x08' => ['\\', 'b']
      | '\t' => ['\\', 't']
      | '\n' => if long then ['\n'] else ['\\', 'n']
      | '\x0c' => ['\\', 'f']
      | '\r' => ['\\', 'r']
      | '\\' => ['\\', '\\']
      | _ =>
        if c.toNat < 0x20 || c.toNat == 0x7F then
          ['\\', 'u', '0', '0', hexDigit (c.toNat / 16), hexDigit (c.toNat % 16)]
        else [c]) ++ escapeBasic long 0 rest

/-- A string with its quotes. A text of several lines starts on a line of its own. -/
def quoteChars (text : List Char) : List Char :=
  let start := if text.contains '\n' then ['\n'] else []
  match chooseQuoting text with
  | .basic => '"' :: escapeBasic false 0 text ++ ['"']
  | .literal => '\'' :: text ++ ['\'']
  | .longBasic => ['"', '"', '"'] ++ start ++ escapeBasic true 0 text ++ ['"', '"', '"']
  | .longLiteral => ['\'', '\'', '\''] ++ start ++ text ++ ['\'', '\'', '\'']

def quote (text : String) : String := String.ofList (quoteChars text.toList)

/-- An array of strings; of several each stands on its own line. -/
def quoteList : List String → String
  | [] => "[]"
  | [text] => "[" ++ quote text ++ "]"
  | texts => "[\n" ++ String.join (texts.map fun text => "    " ++ quote text ++ ",\n") ++ "]"

def tableText (header : String) (entries : List (String × String)) : String :=
  "[" ++ header ++ "]\n" ++
    String.join (entries.map fun (key, value) => key ++ " = " ++ value ++ "\n")

end RecordQuery.Toml
