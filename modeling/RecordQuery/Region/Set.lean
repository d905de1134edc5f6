import RecordQuery.Files
import RecordQuery.Region.Category
import RecordQuery.Region.Feature
import RecordQuery.Text.LetterCase

/-!
# Sets of named areas

The features of a boundary set, gathered by display name. Features of one name make one area, in
which no polygon stands twice.
-/

namespace RecordQuery.Region

open Json (Value)

inductive Error where
  | unreadableFile (path : Path) (reason : String)
  | malformed (origin : String) (cause : Json.Fault)
  | unnamed (origin : String) (index : Nat) (keys : List String)
  | invalidGeometry (origin : String) (index : Nat) (cause : GeometryError)
deriving DecidableEq

namespace Error

def message : Error → String
  | .unreadableFile path reason => s!"failed to read boundary set {path.text}: {reason}"
  | .malformed origin cause => s!"failed to parse boundary set {origin}: {cause.message}"
  | .unnamed origin index keys =>
    s!"feature {index} in {origin} has no value for any of the name keys " ++
      Text.Quoted.encodeList keys
  | .invalidGeometry origin index cause =>
    s!"feature {index} in {origin} has invalid geometry: {cause.message}"

end Error

/-- The first of the keys' values that is a text with a word in it. -/
def rawName? (nameKeys : List String) (properties : List (String × Value)) : Option String :=
  let texts := nameKeys.filterMap fun key => (Entries.find? key properties).bind Value.asString?
  texts.find? fun text => !text.toList.all Text.isBlank

def Feature.displayName? (nameKeys : List String) (feature : Feature) : Option String :=
  (feature.properties.bind (rawName? nameKeys)).map Text.titleCase

structure RegionSet where
  areas : SortedMap Area

namespace RegionSet

def empty : RegionSet := ⟨SortedMap.empty⟩

def get? (set : RegionSet) (name : String) : Option Area := set.areas.get? name

def names (set : RegionSet) : List String := set.areas.keys

def size (set : RegionSet) : Nat := set.areas.size

def isEmpty (set : RegionSet) : Bool := set.areas.entries.isEmpty

def add (set : RegionSet) (name : String) (polygons : List Polygon) : RegionSet :=
  ⟨set.areas.insert name (polygons.foldl Area.add ((set.get? name).getD Area.empty))⟩

def addFeature (origin : String) (nameKeys : List String) (set : RegionSet) (index : Nat)
    (feature : Feature) : Except Error RegionSet :=
  match feature.displayName? nameKeys with
  | none => .error (.unnamed origin index nameKeys)
  | some name =>
    match feature.shape.polygons with
    | .error cause => .error (.invalidGeometry origin index cause)
    | .ok polygons => .ok (set.add name polygons)

def addFeatures (origin : String) (nameKeys : List String) (set : RegionSet) (index : Nat) :
    List Feature → Except Error RegionSet
  | [] => .ok set
  | feature :: rest =>
    match addFeature origin nameKeys set index feature with
    | .error error => .error error
    | .ok set => addFeatures origin nameKeys set (index + 1) rest

def ofFeatures (origin : String) (nameKeys : List String) (features : List Feature) :
    Except Error RegionSet :=
  addFeatures origin nameKeys empty 0 features

/-- Reads a boundary set; `origin` is what errors call it. -/
def parse (bytes : List UInt8) (origin : String) (nameKeys : List String) :
    Except Error RegionSet :=
  match parseFeatures bytes with
  | .error cause => .error (.malformed origin cause)
  | .ok features => ofFeatures origin nameKeys features

variable {m : Type → Type} [Monad m]

def load (files : Files m) (path : Path) (nameKeys : List String) : m (Except Error RegionSet) := do
  match ← files.read path with
  | .error (.opening reason) => return .error (.unreadableFile path reason)
  | .error (.reading reason) => return .error (.malformed path.text (.unreadable reason))
  | .ok bytes => return parse bytes path.text nameKeys

end RegionSet

/-!
## Looking up named areas

The boundary sets of all categories together. A category without a set has no areas.
-/

structure Lookup where
  sets : PerCategory (Option RegionSet)

namespace Lookup

def empty : Lookup := ⟨.same none⟩

def insert (lookup : Lookup) (category : Category) (set : RegionSet) : Lookup :=
  ⟨lookup.sets.set category (some set)⟩

def set? (lookup : Lookup) (category : Category) : Option RegionSet := lookup.sets.get category

def get? (lookup : Lookup) (category name : String) : Option Area := do
  let category ← Category.ofName? category
  (← lookup.set? category).get? name

def names (lookup : Lookup) (category : Category) : List String :=
  match lookup.set? category with
  | some set => set.names
  | none => []

def size (lookup : Lookup) : Nat :=
  Category.all.foldl (fun size category => size + (lookup.names category).length) 0

def isEmpty (lookup : Lookup) : Bool := lookup.size == 0

variable {m : Type → Type} [Monad m]

def loadOnto (files : Files m) (lookup : Lookup) : List Source → m (Except Error Lookup)
  | [] => return .ok lookup
  | source :: rest => do
    match ← RegionSet.load files source.path source.nameKeys with
    | .error error => return .error error
    | .ok set => loadOnto files (lookup.insert source.category set) rest

/-- All sources, or the error of the first that fails; of two sources of a category the later
counts. -/
def load (files : Files m) (sources : List Source) : m (Except Error Lookup) :=
  loadOnto files empty sources

def loadDirectory (files : Files m) (directory : Path) : m (Except Error Lookup) :=
  load files (Source.defaultsIn directory)

end Lookup

end RecordQuery.Region
