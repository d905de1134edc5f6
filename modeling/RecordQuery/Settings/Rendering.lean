import RecordQuery.Clause
import RecordQuery.Region.Category
import RecordQuery.Toml.Printer

/-!
# Settings

What is in effect after all settings files have been taken together, and how it is written.
-/

namespace RecordQuery

/-! ## Effective settings -/

/-- Where the boundaries of a category come from, as far as that differs from the default. -/
structure BoundaryOverride where
  file : Option Path
  nameKeys : Option (List String)
deriving DecidableEq

structure Settings where
  /-- The version of queries that do not ask for one. -/
  defaultVersion : Option String
  fields : FieldNames
  /-- Where boundary files are. -/
  directory : Path
  overrides : Region.PerCategory (Option BoundaryOverride)
  /-- The directory of the file that takes precedence over all others. -/
  origin : Option Path
deriving DecidableEq

namespace Settings

def standard : Settings := ⟨none, FieldNames.standard, ⟨"regions"⟩, .same none, none⟩

def overridden (settings : Settings) (source : Region.Source) : Region.Source :=
  match settings.overrides.get source.category with
  | none => source
  | some override =>
    { source with
      path := match override.file with
        | some file => settings.directory.join file
        | none => source.path
      nameKeys := override.nameKeys.getD source.nameKeys }

def sources (settings : Settings) : List Region.Source :=
  (Region.Source.defaultsIn settings.directory).map settings.overridden

end Settings

end RecordQuery

namespace RecordQuery.Settings

/-!
## Writing

As a settings file in which every source of boundaries is spelled out.
-/

def categoriesByName : List Region.Category := [.country, .geography, .marine]

def sourceTable (source : Region.Source) : String :=
  Toml.tableText ("regions." ++ source.category.name)
    [("file", Toml.quote source.path.text), ("name_keys", Toml.quoteList source.nameKeys)]

def render (settings : Settings) : String :=
  let version := (settings.defaultVersion.map fun v => ("default_version", Toml.quote v)).toList
  let sources := categoriesByName.filterMap fun category =>
    settings.sources.find? (·.category == category)
  "\n".intercalate
    ([Toml.tableText "schema" version,
      Toml.tableText "fields"
        [("prefix", Toml.quote settings.fields.base),
          ("all_text", Toml.quote settings.fields.allText),
          ("geo", Toml.quote settings.fields.geo)],
      Toml.tableText "regions" [("dir", Toml.quote settings.directory.text)]] ++
      sources.map sourceTable)

end RecordQuery.Settings
