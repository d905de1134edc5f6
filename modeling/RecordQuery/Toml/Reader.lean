import RecordQuery.Toml.Strings
import RecordQuery.Toml.Table

/-!
# TOML in text

Reads a document as a list of statements. What is wrong with a document that cannot be read is not
told.
-/

namespace RecordQuery.Toml

open Reading

/-- How many arrays and inline tables may be open at once, and how many keys may stand in front of
the last one of a path. -/
def depthLimit : Nat := 80

def isBareKey (c : Char) : Bool := c.isAlphanum || c == '_' || c == '-'

def simpleKey : Reader String := fun s =>
  match s with
  | '"' :: rest => shortString ('"' :: rest)
  | '\'' :: rest => shortString ('\'' :: rest)
  | [] => none
  | c :: rest =>
    if isBareKey c then
      some (String.ofList (c :: rest.takeWhile isBareKey),
        (Rest.tail c rest).below (.dropWhile isBareKey rest))
    else none

def nextKey (s : List Char) : Option (String × Rest Char s.length) :=
  match h : skipBlanks s with
  | '.' :: rest =>
    let behind : Rest Char s.length := ⟨rest, length_lt_of_dropWhile_eq_cons h⟩
    (simpleKey (behindBlanks rest).1).map fun (key, left) =>
      (key, behind.below ((behindBlanks rest).below left.left))
  | _ => none

/-- The keys behind the first one, in front of `read` in reverse. Where a key is missing behind a
dot there is no list of keys. -/
def moreKeys (bound : Nat) (read : List String) (s : List Char) (h : s.length ≤ bound) :
    Option (List String × Left Char bound) :=
  if (skipBlanks s).head? == some '.' then
    match nextKey s with
    | none => none
    | some (key, ⟨left, hleft⟩) => moreKeys bound (key :: read) left (length_le_of_lt hleft h)
  else some (read, ⟨s, h⟩)
termination_by s.length

def keysFrom (key : String) (s : List Char) : Option (List String × Left Char s.length) :=
  moreKeys s.length [key] s (length_le_self s)

def dottedKey : Reader (List String × String) := fun s =>
  match simpleKey s with
  | none => none
  | some (key, behind) =>
    match keysFrom key behind.1 with
    | some (last :: before, left) =>
      if depthLimit < before.length then none
      else some ((before.reverse, last), behind.below left)
    | _ => none

def triviaRest? (s : List Char) : Option (Rest Char s.length) :=
  match s with
  | '#' :: rest => some ((Rest.tail '#' rest).below (.dropWhile isPlain rest))
  | other => newline? other

def skipTrivia (s : List Char) : List Char :=
  match triviaRest? (skipBlanks s) with
  | some ⟨rest, h⟩ =>
    have := Nat.lt_of_lt_of_le h (length_skipBlanks_le s)
    skipTrivia rest
  | none => skipBlanks s
termination_by s.length

theorem length_skipTrivia_le (s : List Char) : (skipTrivia s).length ≤ s.length := by
  fun_induction skipTrivia s with
  | case1 s rest _ _ h ih => omega
  | case2 s _ => exact length_skipBlanks_le s

theorem length_lt_of_skipTrivia {s rest : List Char} {bound : Nat}
    (hrest : rest.length < (skipTrivia s).length) (h : s.length ≤ bound) : rest.length < bound :=
  Nat.lt_of_lt_of_le hrest (Nat.le_trans (length_skipTrivia_le s) h)

theorem length_le_of_skipTrivia {s rest : List Char} {bound : Nat}
    (hrest : rest.length < (skipTrivia s).length) (h : s.length ≤ bound) : rest.length ≤ bound :=
  Nat.le_of_lt (length_lt_of_skipTrivia hrest h)

def behindTrivia (s : List Char) : Left Char s.length := ⟨skipTrivia s, length_skipTrivia_le s⟩

def isWordChar (c : Char) : Bool :=
  !(isBlank c || ['\n', '\r', '#', '"', '\'', '=', ',', '[', ']', '{', '}'].contains c)

def goesOn (s : List Char) : Bool :=
  match skipBlanks s with
  | [] => false
  | c :: _ => isWordChar c && c != '.'

/-- A word with the blanks that it goes on behind, as a date does with its time. -/
def word : List Char → List Char
  | [] => []
  | c :: rest => if isWordChar c || (isBlank c && goesOn rest) then c :: word rest else []

def scalar : Reader Value := fun s =>
  match s with
  | [] => none
  | c :: rest =>
    match word (c :: rest) with
    | [] => none
    | d :: read =>
      (wordValue? (d :: read)).map fun value =>
        (value, (Rest.tail c rest).below (.drop read.length rest))

/-- What stands behind a part of a series: a comma, which promises more, or the end. -/
def partEnd (closing : Char) : Reader Bool := fun s =>
  match s with
  | [] => none
  | c :: rest =>
    if c = ',' then some (true, .tail c rest)
    else if c = closing then some (false, .tail c rest)
    else none

def part {α : Type} (closing : Char) (item : Reader α) : Reader (Option α × Bool) := fun s =>
  match s with
  | [] => none
  | c :: rest =>
    if c = closing then some ((none, false), .tail c rest)
    else
      match item (c :: rest) with
      | none => none
      | some (x, behind) =>
        let next := behindTrivia behind.1
        (partEnd closing next.1).map fun (more, left) =>
          ((some x, more), behind.below (next.below left.left))

/-- The parts of a series up to the closing mark, with commas between them and perhaps behind the
last, in front of `read` in reverse. -/
def moreParts {α : Type} (closing : Char) (item : Reader α) (bound : Nat) (read : List α)
    (s : List Char) (h : s.length ≤ bound) : Option (List α × Rest Char bound) :=
  match part closing item (skipTrivia s) with
  | none => none
  | some ((x, more), ⟨rest, hrest⟩) =>
    if more then
      moreParts closing item bound (x.toList ++ read) rest (length_le_of_skipTrivia hrest h)
    else some (x.toList ++ read, ⟨rest, length_lt_of_skipTrivia hrest h⟩)
termination_by s.length
decreasing_by exact Nat.lt_of_lt_of_le hrest (length_skipTrivia_le s)

def series {α : Type} (closing : Char) (item : Reader α) (s : List Char) :
    Option (List α × Rest Char s.length) :=
  (moreParts closing item s.length [] s (length_le_self s)).map fun (read, rest) =>
    (read.reverse, rest)

def equals? (s : List Char) : Option (Rest Char s.length) :=
  match s with
  | '=' :: rest => some (.tail '=' rest)
  | _ => none

/-- A key, an equals sign and a value, with what `gap` skips on both sides of the sign. -/
def pair (gap : (s : List Char) → Left Char s.length) (item : Reader Value) :
    Reader (List String × String × Value) := fun s =>
  match dottedKey s with
  | none => none
  | some ((path, key), afterKey) =>
    let mark := gap afterKey.1
    match equals? mark.1 with
    | none => none
    | some behind =>
      let start := gap behind.1
      (item start.1).map fun (value, left) =>
        ((path, key, value),
          afterKey.below (mark.short (behind.below (start.below left.left))).left)

def valueWith (item : Reader Value) : Reader Value := fun s =>
  match s with
  | '"' :: rest => (string ('"' :: rest)).map fun (text, left) => (.string text, left)
  | '\'' :: rest => (string ('\'' :: rest)).map fun (text, left) => (.string text, left)
  | '[' :: rest => (series ']' item rest).map fun (read, left) => (.array read, .cons '[' left)
  | '{' :: rest =>
    match series '}' (pair behindTrivia item) rest with
    | none => none
    | some (read, left) => (Table.ofPairs read).map fun table => (table, .cons '{' left)
  | other => scalar other

def value : (room : Nat) → Reader Value
  | 0 => fun s =>
    match s with
    | '[' :: _ => none
    | '{' :: _ => none
    | other => valueWith (fun _ => none) other
  | room + 1 => valueWith (value room)

def behindComment (s : List Char) : Left Char s.length :=
  match s with
  | '#' :: comment => .cons '#' (.dropWhile isPlain comment)
  | other => .all other

def endOfLine (s : List Char) : Option (Left Char s.length) :=
  let line := (behindBlanks s).below (behindComment (behindBlanks s).1)
  if line.1.isEmpty then some line
  else (newline? line.1).map fun rest => line.below rest.left

def headerKey (count : Nat) (s : List Char) :
    Option ((List String × String) × Left Char s.length) :=
  let start := behindBlanks s
  match dottedKey start.1 with
  | none => none
  | some (key, afterKey) =>
    let close := behindBlanks afterKey.1
    if close.1.take count == List.replicate count ']' then
      some (key, start.below (afterKey.below (close.below (.drop count close.1))).left)
    else none

def header : Reader Statement := fun s =>
  match s with
  | '[' :: '[' :: rest =>
    (headerKey 2 rest).map fun ((path, key), left) =>
      (.element path key, .cons '[' ((Rest.tail '[' rest).below left))
  | '[' :: rest =>
    (headerKey 1 rest).map fun ((path, key), left) =>
      (.header path key, (Rest.tail '[' rest).below left)
  | _ => none

def statement : Reader Statement := fun s =>
  match s with
  | '[' :: rest => header ('[' :: rest)
  | other =>
    (pair behindBlanks (value depthLimit) other).map fun ((path, key, value), left) =>
      (.assign path key value, left)

def statementLine : Reader Statement := fun s =>
  match statement s with
  | none => none
  | some (next, behind) => (endOfLine behind.1).map fun left => (next, behind.below left)

def statements (read : List Statement) (s : List Char) : Option (List Statement) :=
  if (skipTrivia s).isEmpty then some read.reverse
  else
    match statementLine (skipTrivia s) with
    | none => none
    | some (next, ⟨rest, _h⟩) => statements (next :: read) rest
termination_by s.length
decreasing_by exact Nat.lt_of_lt_of_le _h (length_skipTrivia_le s)

/-- The table a text stands for. A mark of byte order in front does not count. -/
def parse (text : String) : Option (List (String × Value)) :=
  let chars := match text.toList with
    | '\uFEFF' :: rest => rest
    | chars => chars
  (statements [] chars).bind Table.ofStatements

end RecordQuery.Toml
