import RecordQuery.Json.Reader.Scalars

/-!
# JSON values in text

Lists and objects are read by one loop each, whatever their items are. A value may nest 127
containers; the next one is refused where it opens.
-/

namespace RecordQuery.Json.Reader

open Reading

variable {α σ : Type}

def depthLimit : Nat := 127

inductive Ahead (bound : Nat) where
  | item (start : Left UInt8 bound)
  | close (rest : Rest UInt8 bound)

def firstItem (s : List UInt8) : Except Fault (Ahead s.length) :=
  match h : skipBlanks s with
  | [] => .error .endInList
  | b :: rest =>
    if chr b = ']' then .ok (.close ⟨rest, length_lt_of_skipBlanks h⟩)
    else .ok (.item ⟨b :: rest, length_le_of_skipBlanks h⟩)

def nextItem (s : List UInt8) : Except Fault (Ahead s.length) :=
  match h : skipBlanks s with
  | [] => .error .endInList
  | b :: rest =>
    let behind : Rest UInt8 s.length := ⟨rest, length_lt_of_skipBlanks h⟩
    match chr b with
    | ']' => .ok (.close behind)
    | ',' =>
      match h' : skipBlanks rest with
      | [] => .error .endInValue
      | c :: next =>
        if chr c = ']' then .error .trailingComma
        else .ok (.item (behind.below ⟨c :: next, length_le_of_skipBlanks h'⟩).left)
    | _ => .error .expectedCommaOrBracket

def closeList (s : List UInt8) : Except Fault (Rest UInt8 s.length) :=
  match h : skipBlanks s with
  | [] => .error .endInList
  | b :: rest =>
    match chr b with
    | ']' => .ok ⟨rest, length_lt_of_skipBlanks h⟩
    | ',' =>
      match skipBlanks rest with
      | c :: _ => .error (if chr c = ']' then .trailingComma else .trailingCharacters)
      | [] => .error .trailingCharacters
    | _ => .error .trailingCharacters

/-- The items after the first ones, in reverse in front of `items`, through the closing
bracket. -/
def moreElements (item : Reader α) (bound : Nat) (items : List α) (s : List UInt8)
    (hs : s.length ≤ bound) : Except Fault (List α × Rest UInt8 bound) :=
  match nextItem s with
  | .error fault => .error fault
  | .ok (.close rest) => .ok (items, Left.short ⟨s, hs⟩ rest)
  | .ok (.item ⟨start, hstart⟩) =>
    match item start with
    | .error fault => .error fault
    | .ok (x, ⟨left, hleft⟩) =>
      moreElements item bound (x :: items) left (length_le_of_lt_of_le hleft hstart hs)
termination_by s.length

def elementsFrom (item : Reader α) (items : List α) : Reader (List α) := fun s =>
  moreElements item s.length items s (length_le_self s)

def elements (item : Reader α) : Reader (List α) := fun s =>
  match firstItem s with
  | .error fault => .error fault
  | .ok (.close rest) => .ok ([], rest)
  | .ok (.item start) =>
    match item start.1 with
    | .error fault => .error fault
    | .ok (x, afterFirst) =>
      match elementsFrom item [x] afterFirst.1 with
      | .error fault => .error fault
      | .ok (items, rest) => .ok (items.reverse, start.short (afterFirst.below rest.left))

def nextMember (s : List UInt8) : Except Fault (Bool × Rest UInt8 s.length) :=
  match h : skipBlanks s with
  | [] => .error .endInObject
  | b :: rest =>
    let behind : Rest UInt8 s.length := ⟨rest, length_lt_of_skipBlanks h⟩
    match chr b with
    | '}' => .ok (false, behind)
    | ',' =>
      match h' : skipBlanks rest with
      | [] => .error .endInValue
      | c :: next =>
        match chr c with
        | '"' => .ok (true, behind.below (Rest.left ⟨next, length_lt_of_skipBlanks h'⟩))
        | '}' => .error .trailingComma
        | _ => .error .keyNotString
    | _ => .error .expectedCommaOrBrace

theorem length_lt_of_members {s afterKey afterValue next : List UInt8} {bound : Nat}
    (hnext : next.length < afterValue.length) (hvalue : afterValue.length < afterKey.length)
    (hkey : afterKey.length < s.length) (hs : s.length ≤ bound) : next.length < bound := by
  omega

theorem length_le_of_members {s afterKey afterValue next : List UInt8} {bound : Nat}
    (hnext : next.length < afterValue.length) (hvalue : afterValue.length < afterKey.length)
    (hkey : afterKey.length < s.length) (hs : s.length ≤ bound) : next.length ≤ bound :=
  Nat.le_of_lt (length_lt_of_members hnext hvalue hkey hs)

/-- The members from the first quote of a key on. Each key goes to `member` together with what
was gathered before; `member` reads the colon and the value. -/
def moreMembers (member : σ → String → Reader σ) (bound : Nat) (gathered : σ) (s : List UInt8)
    (hs : s.length ≤ bound) : Except Fault (σ × Rest UInt8 bound) :=
  match string s with
  | .error fault => .error fault
  | .ok (key, ⟨afterKey, hkey⟩) =>
    match member gathered key afterKey with
    | .error fault => .error fault
    | .ok (gathered, ⟨left, hleft⟩) =>
      match nextMember left with
      | .error fault => .error fault
      | .ok (false, ⟨rest, hrest⟩) =>
        .ok (gathered, ⟨rest, length_lt_of_members hrest hleft hkey hs⟩)
      | .ok (true, ⟨next, hnext⟩) =>
        moreMembers member bound gathered next
          (length_le_of_members hnext hleft hkey hs)
termination_by s.length

def membersFrom (member : σ → String → Reader σ) (start : σ) : Reader σ := fun s =>
  moreMembers member s.length start s (length_le_self s)

def members (member : σ → String → Reader σ) (start : σ) : Reader σ := fun s =>
  match h : skipBlanks s with
  | [] => .error .endInObject
  | b :: rest =>
    let behind : Rest UInt8 s.length := ⟨rest, length_lt_of_skipBlanks h⟩
    match chr b with
    | '}' => .ok (start, behind)
    | '"' =>
      match membersFrom member start rest with
      | .error fault => .error fault
      | .ok (gathered, left) => .ok (gathered, behind.below left.left)
    | _ => .error .keyNotString

def word (letters : List Char) (value : Value) (s : List UInt8) :
    Except Fault (Value × Left UInt8 s.length) :=
  match restOfWord letters s with
  | .error fault => .error fault
  | .ok left => .ok (value, left)

def valueWith (list object : Reader Value) : Reader Value := fun s =>
  match h : skipBlanks s with
  | [] => .error .endInValue
  | b :: rest =>
    let behind : Rest UInt8 s.length := ⟨rest, length_lt_of_skipBlanks h⟩
    let short : Except Fault (Value × Left UInt8 rest.length) →
        Except Fault (Value × Rest UInt8 s.length) := fun
      | .error fault => .error fault
      | .ok (value, left) => .ok (value, behind.below left)
    let long : Except Fault (Value × Rest UInt8 rest.length) →
        Except Fault (Value × Rest UInt8 s.length) := fun
      | .error fault => .error fault
      | .ok (value, left) => .ok (value, behind.below left.left)
    match chr b with
    | 'n' => short (word ['u', 'l', 'l'] .null rest)
    | 't' => short (word ['r', 'u', 'e'] (.bool true) rest)
    | 'f' => short (word ['a', 'l', 's', 'e'] (.bool false) rest)
    | '-' =>
      match number true rest with
      | .error fault => .error fault
      | .ok (value, left) => .ok (.number value, behind.below left.left)
    | '"' =>
      match string rest with
      | .error fault => .error fault
      | .ok (text, left) => .ok (.string text, behind.below left.left)
    | '[' => long (list rest)
    | '{' => long (object rest)
    | c =>
      if c.isDigit then
        match number false (b :: rest) with
        | .error fault => .error fault
        | .ok (value, left) =>
          .ok (.number value, Left.short ⟨b :: rest, length_le_of_skipBlanks h⟩ left)
      else .error .expectedValue

def array (item : Reader Value) : Reader Value := fun s =>
  match elements item s with
  | .error fault => .error fault
  | .ok (items, rest) => .ok (.array items, rest)

def member (item : Reader Value) (gathered : List (String × Value)) (key : String) :
    Reader (List (String × Value)) := fun s =>
  match colon s with
  | .error fault => .error fault
  | .ok behind =>
    match item behind.1 with
    | .error fault => .error fault
    | .ok (value, rest) => .ok (Entries.insert key value gathered, behind.below rest.left)

/-- An object whose values `item` reads; of members with one key the last counts. -/
def object (item : Reader Value) : Reader Value := fun s =>
  match members (member item) [] s with
  | .error fault => .error fault
  | .ok (gathered, rest) => .ok (.object gathered, rest)

/-- A value that may open `room` containers inside each other. -/
def value : (room : Nat) → Reader Value
  | 0 => valueWith (fun _ => .error .tooDeep) (fun _ => .error .tooDeep)
  | room + 1 => valueWith (array (value room)) (object (value room))

def finish {n : Nat} (rest : Rest UInt8 n) : Except Fault Unit :=
  if (skipBlanks rest.1).isEmpty then .ok () else .error .trailingCharacters

end RecordQuery.Json.Reader

namespace RecordQuery.Json

def Value.parse (text : String) : Except Fault Value :=
  match Reader.value Reader.depthLimit text.toUTF8.toList with
  | .error fault => .error fault
  | .ok (value, rest) => (Reader.finish rest).map fun _ => value

end RecordQuery.Json
