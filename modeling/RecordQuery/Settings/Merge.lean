import RecordQuery.Settings.Rendering
import RecordQuery.Settings.Layer

/-!
# Merging settings

Several files, the one that takes precedence first, make one set of settings: for each key the
first file that defines it counts. Paths are seen from the directory of the file they stand in.
-/

namespace RecordQuery.Settings

inductive Error where
  | unreadableFile (path : Path) (reason : String)
  | malformed (path : Path)
  | unknownCategory (path : Path) (category : String)
  | noHomeDirectory
deriving DecidableEq

namespace Error

/-- The text of an error. What the TOML reader says of a file it refuses is a parameter, as its
wording is not part of the program. -/
def message (error : Error) (complaint : Path → Option String := fun _ => none) : String :=
  match error with
  | .unreadableFile path reason => s!"failed to read config file {path.text}: {reason}"
  | .malformed path =>
    match complaint path with
    | some words => s!"failed to parse config file {path.text}: {words}"
    | none => s!"failed to parse config file {path.text}"
  | .unknownCategory path category => s!"unknown region category '{category}' in {path.text}"
  | .noHomeDirectory => "could not determine home directory"

theorem message_malformed (path : Path) (complaint : Path → Option String) :
    (malformed path).message complaint =
      match complaint path with
      | some words => s!"failed to parse config file {path.text}: {words}"
      | none => s!"failed to parse config file {path.text}" :=
  rfl

-- Only of a file that is refused there is something to say.
theorem message_congr {complaint other : Path → Option String} {error : Error}
    (h : ∀ path, error = .malformed path → complaint path = other path) :
    error.message complaint = error.message other := by
  cases error with
  | malformed path => rw [message_malformed, message_malformed, h path rfl]
  | unreadableFile | unknownCategory | noHomeDirectory => rfl

end Error

structure Source where
  path : Path
  layer : Layer

namespace Source

/-- The directory of a file; a path without one is seen from the working directory. -/
def directory (source : Source) : Path := source.path.parent?.getD ⟨"."⟩

end Source

/-- The path a text stands for: a tilde in front, alone or before a slash, is the home
directory. -/
def expandHome (home : Option Path) (text : String) : Except Error Path :=
  match text.toList with
  | ['~'] =>
    match home with
    | some directory => .ok directory
    | none => .error .noHomeDirectory
  | '~' :: '/' :: rest =>
    match home with
    | some directory => .ok (directory.join ⟨String.ofList rest⟩)
    | none => .error .noHomeDirectory
  | _ => .ok ⟨text⟩

def resolvePath (home : Option Path) (text : String) (directory : Path) : Except Error Path := do
  let path ← expandHome home text
  return if path.isAbsolute then path else directory.join path

def FieldsLayer.over (layer : FieldsLayer) (below : FieldNames) : FieldNames where
  base := layer.base.getD below.base
  allText := layer.allText.getD below.allText
  geo := layer.geo.getD below.geo

def BoundariesLayer.over (home : Option Path) (layer : BoundariesLayer)
    (below : Option BoundaryOverride) : Except Error BoundaryOverride := do
  let below := below.getD ⟨none, none⟩
  let file ← match layer.file with
    | some text => do pure (some (← expandHome home text))
    | none => pure below.file
  return ⟨file, layer.nameKeys <|> below.nameKeys⟩

structure Boundaries where
  directory : Path
  overrides : Region.PerCategory (Option BoundaryOverride)

def Boundaries.standard : Boundaries := ⟨Settings.standard.directory, Settings.standard.overrides⟩

def Boundaries.addCategory (home : Option Path) (path : Path) (boundaries : Boundaries)
    (entry : String × BoundariesLayer) : Except Error Boundaries :=
  match Region.Category.ofName? entry.1 with
  | none => .error (.unknownCategory path entry.1)
  | some category => do
    let override ← entry.2.over home (boundaries.overrides.get category)
    return { boundaries with overrides := boundaries.overrides.set category (some override) }

def Boundaries.addSource (home : Option Path) (source : Source) (below : Boundaries) :
    Except Error Boundaries :=
  match source.layer.regions with
  | none => .ok below
  | some regions => do
    -- Only the directory is seen from this file; the files in it are seen from the directory.
    let directory ← match regions.directory with
      | some text => resolvePath home text source.directory
      | none => pure below.directory
    regions.categories.entries.foldlM (addCategory home source.path)
      { below with directory := directory }

def merge (home : Option Path) (sources : List Source) : Except Error Settings := do
  let boundaries ← sources.reverse.foldlM
    (fun below source => Boundaries.addSource home source below) Boundaries.standard
  return {
    defaultVersion := sources.findSome? fun source => source.layer.schema.join
    fields := sources.foldr
      (fun source below =>
        match source.layer.fields with
        | some layer => layer.over below
        | none => below)
      FieldNames.standard
    directory := boundaries.directory
    overrides := boundaries.overrides
    origin := sources.head?.map Source.directory }

end RecordQuery.Settings
