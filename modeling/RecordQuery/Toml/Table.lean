import RecordQuery.Entries

/-!
# TOML values

Of numbers and dates only so much is kept as a reader of settings can tell: the value of an
integer, whether a float can be held, and that a date is one. A word may have the form of an integer
without standing for one; that is no fault of the document but of whoever looks at the number.
-/

namespace RecordQuery.Toml

inductive Value where
  | string (text : String)
  /-- An integer; there is no value where its digits do not make up a number. -/
  | integer (value : Option Int)
  | float (finite : Bool)
  | boolean (value : Bool)
  | date
  | array (items : List Value)
  | table (entries : List (String × Value))

namespace Value

instance : Inhabited Value := ⟨.table []⟩

mutual

def holds (least greatest : Int) : Value → Bool
  | .integer value => value.any fun n => least ≤ n && n ≤ greatest
  | .float finite => finite
  | .array items => holdsItems least greatest items
  | .table entries => holdsEntries least greatest entries
  | .string _ | .boolean _ | .date => true

def holdsItems (least greatest : Int) : List Value → Bool
  | [] => true
  | item :: rest => holds least greatest item && holdsItems least greatest rest

def holdsEntries (least greatest : Int) : List (String × Value) → Bool
  | [] => true
  | (_, value) :: rest => holds least greatest value && holdsEntries least greatest rest

end

/-- Numbers that are passed over may have 128 bits. -/
def isWide (value : Value) : Bool :=
  value.holds (-0x80000000000000000000000000000000) 0xFFFFFFFFFFFFFFFFFFFFFFFFFFFFFFFF

/-- Numbers that are set aside and looked at later may have 64 bits. -/
def isNarrow (value : Value) : Bool := value.holds (-0x8000000000000000) 0xFFFFFFFFFFFFFFFF

end Value

/-!
## TOML tables

A document is a list of statements, each of which may add to the tables made by those before it.
Where a table comes from decides what may be added to it: a table with a header is defined once,
a table made by dotted keys is extended by dotted keys alone, and one that only lies on the way to
another may still get a header.
-/

inductive Statement where
  /-- A value under a key of the current table, or of a table below it. -/
  | assign (path : List String) (key : String) (value : Value)
  /-- The header of a table, which becomes the current one. -/
  | header (path : List String) (key : String)
  /-- The header of a further element of an array of tables. -/
  | element (path : List String) (key : String)

/-- What made a table: its header, a header below it, or a dotted key. -/
inductive Origin where
  | header
  | implied
  | dotted
deriving DecidableEq

/-- A value that is complete, a table, or an array of tables with the latest one first. -/
inductive Node where
  | value (value : Value)
  | table (origin : Origin) (entries : List (String × Node))
  | tables (elements : List Node)

namespace Node

mutual

def toValue : Node → Value
  | .value v => v
  | .table _ entries => .table (toEntries entries)
  | .tables elements => .array (toItems elements).reverse

def toItems : List Node → List Value
  | [] => []
  | node :: rest => toValue node :: toItems rest

def toEntries : List (String × Node) → List (String × Value)
  | [] => []
  | (key, node) :: rest => (key, toValue node) :: toEntries rest

end

end Node

namespace Table

/-- Changes the table at the end of a path, making tables on the way. Of an array of tables the
latest one is meant. Dotted keys do not lead through a table that has a header. -/
def change (dotted : Bool)
    (f : Origin → List (String × Node) → Option (List (String × Node))) :
    (path : List String) → Origin → List (String × Node) → Option (List (String × Node))
  | [], origin, entries => f origin entries
  | key :: path, _, entries =>
    match Entries.find? key entries with
    | none => do
      let origin := if dotted then .dotted else .implied
      let inner ← change dotted f path origin []
      return Entries.insert key (.table origin inner) entries
    | some (.table origin inner) =>
      -- What a header has defined stays as it is; what dotted keys have defined can grow.
      if dotted && origin == .header then none
      else do
        let inner ← change dotted f path origin inner
        return Entries.insert key (.table origin inner) entries
    | some (.tables (.table origin inner :: earlier)) => do
      let inner ← change dotted f path origin inner
      return Entries.insert key (.tables (.table origin inner :: earlier)) entries
    | some _ => none

/-- A new entry of a table; a table below is of dotted keys if and only if this is one. -/
def addValue (isDotted : Bool) (key : String) (value : Value) (origin : Origin)
    (entries : List (String × Node)) : Option (List (String × Node)) :=
  if (origin == .dotted) != isDotted then none
  else if (Entries.find? key entries).isSome then none
  else some (Entries.insert key (.value value) entries)

def assign (path : List String) (key : String) (value : Value) (origin : Origin)
    (entries : List (String × Node)) : Option (List (String × Node)) :=
  change true (addValue (!path.isEmpty) key value) path origin entries

def addHeader (key : String) (_ : Origin) (entries : List (String × Node)) :
    Option (List (String × Node)) :=
  match Entries.find? key entries with
  | none => some (Entries.insert key (.table .header []) entries)
  | some (.table .implied inner) => some (Entries.insert key (.table .header inner) entries)
  | some _ => none

def addElement (key : String) (_ : Origin) (entries : List (String × Node)) :
    Option (List (String × Node)) :=
  match Entries.find? key entries with
  | none => some (Entries.insert key (.tables [.table .header []]) entries)
  | some (.tables elements) =>
    some (Entries.insert key (.tables (.table .header [] :: elements)) entries)
  | some _ => none

structure Progress where
  root : List (String × Node)
  current : List String

def Progress.add (progress : Progress) : Statement → Option Progress
  | .assign path key value => do
    let root ← change false (assign path key value) progress.current .header progress.root
    return { progress with root := root }
  | .header path key => do
    let root ← change false (addHeader key) path .header progress.root
    return ⟨root, path ++ [key]⟩
  | .element path key => do
    let root ← change false (addElement key) path .header progress.root
    return ⟨root, path ++ [key]⟩

def ofStatements (statements : List Statement) : Option (List (String × Value)) := do
  let progress ← statements.foldlM Progress.add ⟨[], []⟩
  return Node.toEntries progress.root

def ofPairs (pairs : List (List String × String × Value)) : Option Value := do
  let entries ← pairs.foldlM
    (fun entries (path, key, value) => assign path key value .header entries)
    []
  return .table (Node.toEntries entries)

end Table

end RecordQuery.Toml
