import RecordQuery.Reading
import RecordQuery.Toml.Scalar

/-!
# TOML strings

Basic strings have escapes, literal ones do not; both may be written over several lines between
three quotes.
-/

namespace RecordQuery.Toml

open Reading

abbrev Reader (α : Type) := (s : List Char) → Option (α × Rest Char s.length)

def isPlain (c : Char) : Bool := c == '\t' || (0x20 ≤ c.toNat && c.toNat != 0x7F)

def isBlank (c : Char) : Bool := c == ' ' || c == '\t'

def skipBlanks (s : List Char) : List Char := s.dropWhile isBlank

theorem length_skipBlanks_le (s : List Char) : (skipBlanks s).length ≤ s.length :=
  length_dropWhile_le _ _

def behindBlanks (s : List Char) : Left Char s.length := ⟨skipBlanks s, length_skipBlanks_le s⟩

def newline? (s : List Char) : Option (Rest Char s.length) :=
  match s with
  | '\n' :: rest => some (.tail '\n' rest)
  | '\r' :: '\n' :: rest => some (.cons '\r' (.tail '\n' rest))
  | _ => none

def codeEscape (count : Nat) (s : List Char) : Option (Char × Left Char s.length) :=
  let digits := s.take count
  let code := natOfDigits 16 digits
  if digits.length == count && digits.all isHexDigit && Nat.isValidChar code then
    some (Char.ofNat code, .drop count s)
  else none

def escape (s : List Char) : Option (Char × Left Char s.length) :=
  match s with
  | [] => none
  | c :: rest =>
    let single (d : Char) : Option (Char × Left Char (c :: rest).length) := some (d, .tail c rest)
    let numeric (count : Nat) : Option (Char × Left Char (c :: rest).length) :=
      (codeEscape count rest).map fun (d, left) => (d, .cons c left)
    match c with
    | 'b' => single '\x08'
    | 't' => single '\t'
    | 'n' => single '\n'
    | 'f' => single '\x0c'
    | 'r' => single '\r'
    | 'e' => single '\x1b'
    | '"' => single '"'
    | '\\' => single '\\'
    | 'x' => numeric 2
    | 'u' => numeric 4
    | 'U' => numeric 8
    | _ => none

def basicChars (bound : Nat) (read : List Char) (s : List Char) (h : s.length ≤ bound) :
    Option (List Char × Rest Char bound) :=
  match s with
  | [] => none
  | c :: rest =>
    match c with
    | '"' => some (read, ⟨rest, h⟩)
    | '\\' =>
      match escape rest with
      | none => none
      | some (d, ⟨left, hleft⟩) =>
        basicChars bound (d :: read) left (length_le_of_le_of_cons hleft h)
    | c => if isPlain c then basicChars bound (c :: read) rest (length_le_of_cons h) else none
termination_by s.length
decreasing_by
  · exact Nat.lt_succ_of_le hleft
  · exact Nat.lt_succ_self _

def basicString (s : List Char) : Option (String × Rest Char s.length) :=
  (basicChars s.length [] s (length_le_self s)).map fun (read, rest) =>
    (String.ofList read.reverse, rest)

def literalString (s : List Char) : Option (String × Rest Char s.length) :=
  match h : s.dropWhile (fun c => isPlain c && c != '\'') with
  | '\'' :: rest =>
    some (String.ofList (s.takeWhile (fun c => isPlain c && c != '\'')),
      ⟨rest, length_lt_of_dropWhile_eq_cons h⟩)
  | _ => none

def skipSpace : List Char → List Char
  | '\r' :: '\n' :: rest => skipSpace rest
  | c :: rest => if isBlank c || c == '\n' then skipSpace rest else c :: rest
  | [] => []

theorem length_skipSpace_le (s : List Char) : (skipSpace s).length ≤ s.length := by
  fun_induction skipSpace s <;> simp_all only [List.length_cons, Nat.le_refl] <;> omega

/-- The rest of a line that ends in a backslash, together with the blanks of the lines after
it. -/
def lineEnd? (s : List Char) : Option (Rest Char s.length) :=
  (newline? (behindBlanks s).1).map fun behind =>
    (behindBlanks s).short (behind.below ⟨skipSpace behind.1, length_skipSpace_le behind.1⟩)

/-- How many quotes stand at the end of a string, when it ends here: the three that end it, and up
to two more in front of them that belong to it. -/
def closingCount (quote : Char) (s : List Char) : Nat :=
  min 5 (s.takeWhile (· == quote)).length

theorem length_drop_closingCount {quote : Char} {s : List Char} (h : 3 ≤ closingCount quote s) :
    (s.drop (closingCount quote s)).length < s.length := by
  have h₁ : (s.takeWhile (· == quote)).length ≤ s.length := (List.takeWhile_sublist _).length_le
  unfold closingCount at h ⊢
  rw [List.length_drop]
  omega

def closing? (quote : Char) (s : List Char) : Option (List Char × Rest Char s.length) :=
  if h : 3 ≤ closingCount quote s then
    some (List.replicate (closingCount quote s - 3) quote,
      ⟨s.drop (closingCount quote s), length_drop_closingCount h⟩)
  else none

/-- The next characters of a string over several lines, in reverse: a line end, a character, or
nothing where the lines go on behind a backslash. -/
def longPiece (escapes : Bool) (s : List Char) : Option (List Char × Rest Char s.length) :=
  match s with
  | [] => none
  | '\n' :: rest => some (['\n'], .tail '\n' rest)
  | '\r' :: '\n' :: rest => some (['\n', '\r'], .cons '\r' (.tail '\n' rest))
  | c :: rest =>
    if escapes && c == '\\' then
      match lineEnd? rest with
      | some left => some ([], .cons c left)
      | none => (escape rest).map fun (d, left) => ([d], (Rest.tail c rest).below left)
    else if isPlain c then some ([c], .tail c rest)
    else none

theorem length_le_of_lt {rest s : List Char} {bound : Nat} (hrest : rest.length < s.length)
    (h : s.length ≤ bound) : rest.length ≤ bound :=
  Nat.le_trans (Nat.le_of_lt hrest) h

/-- The characters of a string over several lines, basic if `escapes` and literal otherwise, put in
front of `read` in reverse. -/
def longChars (quote : Char) (escapes : Bool) (bound : Nat) (read : List Char) (s : List Char)
    (h : s.length ≤ bound) : Option (List Char × Rest Char bound) :=
  match closing? quote s with
  | some (quotes, rest) => some (quotes ++ read, Left.short ⟨s, h⟩ rest)
  | none =>
    match longPiece escapes s with
    | none => none
    | some (piece, ⟨rest, hrest⟩) =>
      longChars quote escapes bound (piece ++ read) rest (length_le_of_lt hrest h)
termination_by s.length

def longText (quote : Char) (escapes : Bool) (s : List Char) :
    Option (String × Rest Char s.length) :=
  (longChars quote escapes s.length [] s (length_le_self s)).map fun (read, rest) =>
    (String.ofList read.reverse, rest)

/-- A string over several lines behind its opening quotes; a line end right there does not
count. -/
def longString (quote : Char) (escapes : Bool) (s : List Char) :
    Option (String × Rest Char s.length) :=
  match newline? s with
  | some behind =>
    (longText quote escapes behind.1).map fun (text, rest) => (text, behind.below rest.left)
  | none => longText quote escapes s

def string : Reader String := fun s =>
  match s with
  | '"' :: '"' :: '"' :: rest =>
    (longString '"' true rest).map fun (text, left) =>
      (text, .cons '"' (.cons '"' (.cons '"' left)))
  | '\'' :: '\'' :: '\'' :: rest =>
    (longString '\'' false rest).map fun (text, left) =>
      (text, .cons '\'' (.cons '\'' (.cons '\'' left)))
  | '"' :: rest => (basicString rest).map fun (text, left) => (text, .cons '"' left)
  | '\'' :: rest => (literalString rest).map fun (text, left) => (text, .cons '\'' left)
  | _ => none

def shortString : Reader String := fun s =>
  match s with
  | '"' :: rest => (basicString rest).map fun (text, left) => (text, .cons '"' left)
  | '\'' :: rest => (literalString rest).map fun (text, left) => (text, .cons '\'' left)
  | _ => none

end RecordQuery.Toml
