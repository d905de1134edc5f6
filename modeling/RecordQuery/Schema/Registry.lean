import RecordQuery.Entries
import RecordQuery.Query.Canonical
import RecordQuery.Query.Compiler
import RecordQuery.Text.Pieces

/-!
# Schemas

A schema is one version of the query language: it checks, compiles and identifies the documents
of that version.
-/

namespace RecordQuery

open Json (Value)
open Query (Document Error Compiler)

structure Schema where
  version : String
  validate : Value → Except Error Unit
  compile : Value → Except Error Clause
  cacheKey : Value → Except Error String

namespace Schema

def firstVersion : String := "v1.0.0"

/-- A document is valid if it is well formed and all the areas it names are known. -/
def validateWith (compiler : Compiler) (query : Value) : Except Error Unit := do
  let document ← Document.ofValue query
  document.namedAreas.forM fun area => discard (compiler.resolve area)

def compileWith (compiler : Compiler) (query : Value) : Except Error Clause := do
  compiler.document (← Document.ofValue query)

def cacheKeyOf (query : Value) : Except Error String := do
  return (← Document.ofValue query).cacheKey

def first (compiler : Compiler) : Schema where
  version := firstVersion
  validate := validateWith compiler
  compile := compileWith compiler
  cacheKey := cacheKeyOf

end Schema

end RecordQuery

namespace RecordQuery.Schema.Version

/-!
## Versions

The order of versions: number by number, a shorter version before its extensions.
-/

/-- A number of at most 64 bits, which may have a plus sign in front. -/
def number? (text : List Char) : Option Nat :=
  let digits := match text with
    | '+' :: rest => rest
    | other => other
  if digits.isEmpty || !digits.all Char.isDigit then none
  else
    let n := digits.foldl (fun n d => 10 * n + (d.toNat - '0'.toNat)) 0
    if n < 0x10000000000000000 then some n else none

/-- The numbers of a version behind its leading `v`s; a part that is no number counts as zero. -/
def key (version : String) : List Nat :=
  (Text.pieces '.' (version.toList.dropWhile (· == 'v'))).map fun part => (number? part).getD 0

def before (a b : String) : Bool := !decide (key b < key a)

end RecordQuery.Schema.Version

namespace RecordQuery.Schema

open Query (Error Compiler)

/-!
## Registries of schemas

The schemas at hand, by version. The newest is the last in the order of versions; of versions
that count the same, the last in the order of characters.
-/

structure Registry where
  schemas : SortedMap Schema

namespace Registry

def empty : Registry := ⟨SortedMap.empty⟩

def register (registry : Registry) (schema : Schema) : Registry :=
  ⟨registry.schemas.insert schema.version schema⟩

def builtin (compiler : Compiler) : Registry := empty.register (Schema.first compiler)

def get (registry : Registry) (version : String) : Except Error Schema :=
  match registry.schemas.get? version with
  | some schema => .ok schema
  | none => .error (.unsupportedVersion version)

def versions (registry : Registry) : List String :=
  registry.schemas.keys.mergeSort Version.before

def newer (newest : Option String) (version : String) : Option String :=
  match newest with
  | some best => if Version.before best version then some version else some best
  | none => some version

def latestVersion? (registry : Registry) : Option String :=
  registry.schemas.keys.foldl newer none

def latest (registry : Registry) : Except Error Schema :=
  match registry.latestVersion? with
  | some version => registry.get version
  | none => .error (.unsupportedVersion "latest")

/-- The schema of a version, or the newest if none is asked for. -/
def getOrLatest (registry : Registry) : Option String → Except Error Schema
  | some version => registry.get version
  | none => registry.latest

def summary (registry : Registry) : String :=
  "SchemaRegistry \x7b versions: " ++ Text.Quoted.encodeList registry.versions ++ " \x7d"

end Registry

end RecordQuery.Schema
