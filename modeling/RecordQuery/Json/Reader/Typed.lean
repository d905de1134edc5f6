import RecordQuery.Json.Reader.Values

/-!
# Reading what is asked for

Readers that know what has to stand in the text, and skip the rest. Where something else stands, a
scalar is read to its end and then refused, a container is refused at its opening mark.
-/

namespace RecordQuery.Json.Reader

open Reading

/-!
## Skipped values

A value nobody asks for is checked for its form alone: numbers may be of any size, strings may
hold any bytes, and containers may nest without a limit, so the open ones are kept in a list.
-/

def skipEscape (s : List UInt8) : Except Fault (Left UInt8 s.length) :=
  match s with
  | [] => .error .endInString
  | b :: rest =>
    match chr b with
    | '"' | '\\' | '/' | 'b' | 'f' | 'n' | 'r' | 't' => .ok (.tail b rest)
    | 'u' =>
      match hexEscape rest with
      | .error fault => .error fault
      | .ok (_, left) => .ok (.cons b left)
    | _ => .error .invalidEscape

def skipBytes (bound : Nat) (s : List UInt8) (h : s.length ≤ bound) :
    Except Fault (Rest UInt8 bound) :=
  match s with
  | [] => .error .endInString
  | b :: rest =>
    match chr b with
    | '"' => .ok ⟨rest, h⟩
    | '\\' =>
      match skipEscape rest with
      | .error fault => .error fault
      | .ok ⟨left, hleft⟩ => skipBytes bound left (length_le_of_le_of_cons hleft h)
    | c =>
      if c.toNat < 0x20 then .error .controlCharacter
      else skipBytes bound rest (length_le_of_cons h)
termination_by s.length
decreasing_by
  · exact Nat.lt_succ_of_le hleft
  · exact Nat.lt_succ_self _

def skipString (s : List UInt8) : Except Fault (Rest UInt8 s.length) :=
  skipBytes s.length s (length_le_self s)

def skipDigits (s : List UInt8) : Except Fault (Left UInt8 s.length) :=
  if (s.takeWhile isDigit).isEmpty then .error .invalidNumber else .ok (.dropWhile isDigit s)

def skipExponent (s : List UInt8) : Except Fault (Left UInt8 s.length) :=
  match s with
  | [] => .ok (.all [])
  | b :: rest =>
    if chr b = 'e' ∨ chr b = 'E' then
      let (_, afterSign) := exponentSign rest
      match skipDigits afterSign.1 with
      | .error fault => .error fault
      | .ok left => .ok (.cons b (afterSign.below left))
    else .ok (.all (b :: rest))

def skipFraction (s : List UInt8) : Except Fault (Left UInt8 s.length) :=
  match s with
  | [] => .ok (.all [])
  | b :: rest =>
    if chr b = '.' then
      match skipDigits rest with
      | .error fault => .error fault
      | .ok afterDigits =>
        match skipExponent afterDigits.1 with
        | .error fault => .error fault
        | .ok left => .ok (.cons b (afterDigits.below left))
    else skipExponent (b :: rest)

def skipNumber (s : List UInt8) : Except Fault (Rest UInt8 s.length) :=
  match wholeDigits s with
  | .error _ => .error .invalidNumber
  | .ok (_, afterWhole) =>
    match skipFraction afterWhole.1 with
    | .error fault => .error fault
    | .ok left => .ok (afterWhole.below left)

inductive Container where
  | list
  | object
deriving DecidableEq

namespace Container

def closing : Container → Char
  | .list => ']'
  | .object => '}'

def endFault : Container → Fault
  | .list => .endInList
  | .object => .endInObject

def commaFault : Container → Fault
  | .list => .expectedCommaOrBracket
  | .object => .expectedCommaOrBrace

end Container

def skipStart : Reader (Option Container) := fun s =>
  match h : skipBlanks s with
  | [] => .error .endInValue
  | b :: rest =>
    let behind : Rest UInt8 s.length := ⟨rest, length_lt_of_skipBlanks h⟩
    let short : Except Fault (Left UInt8 rest.length) →
        Except Fault (Option Container × Rest UInt8 s.length) := fun
      | .error fault => .error fault
      | .ok left => .ok (none, behind.below left)
    let long : Except Fault (Rest UInt8 rest.length) →
        Except Fault (Option Container × Rest UInt8 s.length) := fun
      | .error fault => .error fault
      | .ok left => .ok (none, behind.below left.left)
    match chr b with
    | 'n' => short (restOfWord ['u', 'l', 'l'] rest)
    | 't' => short (restOfWord ['r', 'u', 'e'] rest)
    | 'f' => short (restOfWord ['a', 'l', 's', 'e'] rest)
    | '-' => long (skipNumber rest)
    | '"' => long (skipString rest)
    | '[' => .ok (some .list, behind)
    | '{' => .ok (some .object, behind)
    | c =>
      if c.isDigit then
        match skipNumber (b :: rest) with
        | .error fault => .error fault
        | .ok left => .ok (none, Left.short ⟨b :: rest, length_le_of_skipBlanks h⟩ left)
      else .error .expectedValue

def skipKey (s : List UInt8) : Except Fault (Rest UInt8 s.length) :=
  match h : skipBlanks s with
  | [] => .error .endInObject
  | b :: rest =>
    let behind : Rest UInt8 s.length := ⟨rest, length_lt_of_skipBlanks h⟩
    if chr b = '"' then
      match skipString rest with
      | .error fault => .error fault
      | .ok afterKey =>
        match colon afterKey.1 with
        | .error fault => .error fault
        | .ok left => .ok (behind.below (afterKey.below left.left).left)
    else .error .keyNotString

def skipToValue (container : Container) (s : List UInt8) : Except Fault (Left UInt8 s.length) :=
  match container with
  | .list => .ok (.all s)
  | .object =>
    match skipKey s with
    | .error fault => .error fault
    | .ok left => .ok left.left

/-- The next thing inside a container: its end, or a value or the opening mark of one, behind a
comma unless the container is `fresh`. -/
inductive Inside (bound : Nat) where
  | close (rest : Rest UInt8 bound)
  | scalar (rest : Rest UInt8 bound)
  | opening (container : Container) (rest : Rest UInt8 bound)

def skipInside (container : Container) (fresh : Bool) (s : List UInt8) :
    Except Fault (Inside s.length) :=
  match h : skipBlanks s with
  | [] => .error container.endFault
  | b :: rest =>
    let behind : Rest UInt8 s.length := ⟨rest, length_lt_of_skipBlanks h⟩
    if chr b = container.closing then .ok (.close behind)
    else if !fresh && chr b != ',' then .error container.commaFault
    else
      let next : Left UInt8 s.length :=
        if fresh then ⟨b :: rest, length_le_of_skipBlanks h⟩ else behind.left
      match skipToValue container next.1 with
      | .error fault => .error fault
      | .ok atValue =>
        match skipStart atValue.1 with
        | .error fault => .error fault
        | .ok (none, left) => .ok (.scalar ((next.below atValue).short left))
        | .ok (some inner, left) => .ok (.opening inner ((next.below atValue).short left))

theorem length_lt_of_lt_of_lt {rest s : List UInt8} {bound : Nat} (hrest : rest.length < s.length)
    (hs : s.length < bound) : rest.length < bound :=
  Nat.lt_trans hrest hs

/-- The rest of the `opened` containers, innermost first; `fresh` if the innermost has just been
opened. -/
def skipContainers (bound : Nat) (opened : List Container) (fresh : Bool) (s : List UInt8)
    (hs : s.length < bound) : Except Fault (Rest UInt8 bound) :=
  match opened with
  | [] => .ok ⟨s, hs⟩
  | inner :: outer =>
    match skipInside inner fresh s with
    | .error fault => .error fault
    | .ok (.close ⟨rest, hrest⟩) =>
      skipContainers bound outer false rest (length_lt_of_lt_of_lt hrest hs)
    | .ok (.scalar ⟨rest, hrest⟩) =>
      skipContainers bound (inner :: outer) false rest (length_lt_of_lt_of_lt hrest hs)
    | .ok (.opening container ⟨rest, hrest⟩) =>
      skipContainers bound (container :: inner :: outer) true rest (length_lt_of_lt_of_lt hrest hs)
termination_by s.length

def skip : Reader Unit := fun s =>
  match skipStart s with
  | .error fault => .error fault
  | .ok (none, rest) => .ok ((), rest)
  | .ok (some container, ⟨left, h⟩) =>
    match skipContainers s.length [container] true left h with
    | .error fault => .error fault
    | .ok rest => .ok ((), rest)

/-! ## Wanted values -/

variable {α : Type}

def refuse (wanted : String) : Reader α := fun s =>
  let wrong (found : Found) : Fault := .mismatch (.wrongType found wanted)
  match valueWith (fun _ => .error (wrong .sequence)) (fun _ => .error (wrong .map)) s with
  | .error fault => .error fault
  | .ok (value, _) => .error (wrong (Found.ofValue value))

def container (wanted : String) (list object : Option (Reader α)) : Reader α := fun s =>
  match h : skipBlanks s with
  | [] => .error .endInValue
  | b :: rest =>
    let behind : Rest UInt8 s.length := ⟨rest, length_lt_of_skipBlanks h⟩
    let inside (reader : Reader α) : Except Fault (α × Rest UInt8 s.length) :=
      match reader rest with
      | .error fault => .error fault
      | .ok (x, left) => .ok (x, behind.below left.left)
    match chr b, list, object with
    | '[', some reader, _ => inside reader
    | '{', _, some reader => inside reader
    | _, _, _ => refuse wanted s

def afterColon (reader : Reader α) : Reader α := fun s =>
  match colon s with
  | .error fault => .error fault
  | .ok behind =>
    match reader behind.1 with
    | .error fault => .error fault
    | .ok (x, rest) => .ok (x, behind.below rest.left)

/-- A member that may stand only once: refused if `seen`. -/
def once (field : String) (seen : Bool) (reader : Reader α) : Reader α := fun s =>
  if seen then .error (.mismatch (.duplicateField field)) else afterColon reader s

def mapReader {β : Type} (f : α → β) (reader : Reader α) : Reader β := fun s =>
  match reader s with
  | .error fault => .error fault
  | .ok (x, rest) => .ok (f x, rest)

def checkReader {β : Type} (f : α → Except Mismatch β) (reader : Reader α) : Reader β := fun s =>
  match reader s with
  | .error fault => .error fault
  | .ok (x, rest) =>
    match f x with
    | .error cause => .error (.mismatch cause)
    | .ok y => .ok (y, rest)

def nameOf (wanted : String) (known : List (String × α)) : Reader α := fun s =>
  match h : skipBlanks s with
  | [] => .error .endInValue
  | b :: rest =>
    let behind : Rest UInt8 s.length := ⟨rest, length_lt_of_skipBlanks h⟩
    if chr b = '"' then
      match string rest with
      | .error fault => .error fault
      | .ok (name, left) =>
        match known.find? (·.1 == name) with
        | some (_, choice) => .ok (choice, behind.below left.left)
        | none => .error (.mismatch (.unknownVariant name (known.map (·.1))))
    else refuse wanted s

end RecordQuery.Json.Reader
