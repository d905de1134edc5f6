import RecordQuery.Files

/-!
# Categories of named areas

The categories, and for each of them where the boundaries of its areas come from.
-/

namespace RecordQuery.Region

/-! ## Categories -/

inductive Category where
  | country
  | marine
  | geography
deriving DecidableEq

namespace Category

def all : List Category := [.country, .marine, .geography]

def name : Category → String
  | .country => "country"
  | .marine => "marine"
  | .geography => "geography"

def ofName? (name : String) : Option Category := all.find? (·.name == name)

def defaultFile : Category → String
  | .country => "50m-admin-0-countries-v4.1.0.geojson"
  | .marine => "50m-marine-regions-v4.1.0.geojson"
  | .geography => "50m-geography-regions-v4.1.0.geojson"

/-- The properties that name an area, the preferred one first. Seas go by one key alone, since
the other one merges two oceans. -/
def defaultNameKeys : Category → List String
  | .country => ["NAME_EN", "NAME"]
  | .marine => ["name"]
  | .geography => ["name_en", "name"]

theorem ofName?_name (c : Category) : ofName? c.name = some c := by
  cases c <;> decide

theorem name_of_ofName? {name : String} {c : Category} (h : ofName? name = some c) :
    c.name = name := by
  have hfound := List.find?_some h
  exact beq_iff_eq.1 hfound

theorem name_inj {c d : Category} : c.name = d.name ↔ c = d := by
  cases c <;> cases d <;> decide

def unknownMessage (name : String) : String := s!"unknown region category: {name}"

end Category

structure PerCategory (α : Type) where
  country : α
  marine : α
  geography : α
deriving DecidableEq

namespace PerCategory

variable {α : Type}

def same (value : α) : PerCategory α := ⟨value, value, value⟩

def get (table : PerCategory α) : Category → α
  | .country => table.country
  | .marine => table.marine
  | .geography => table.geography

def set (table : PerCategory α) (category : Category) (value : α) : PerCategory α :=
  match category with
  | .country => { table with country := value }
  | .marine => { table with marine := value }
  | .geography => { table with geography := value }

theorem get_set (table : PerCategory α) (c d : Category) (value : α) :
    (table.set c value).get d = if c = d then value else table.get d := by
  cases c <;> cases d <;> rfl

end PerCategory

/-! ## Sources -/

/-- The file with the boundaries of a category, and the properties that name its areas. -/
structure Source where
  category : Category
  path : Path
  nameKeys : List String
deriving DecidableEq

namespace Source

def defaultsIn (directory : Path) : List Source :=
  Category.all.map fun category =>
    ⟨category, directory.join ⟨category.defaultFile⟩, category.defaultNameKeys⟩

end Source

end RecordQuery.Region
