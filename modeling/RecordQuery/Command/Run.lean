import RecordQuery.Clause.Outline
import RecordQuery.Clause.SearchBody
import RecordQuery.Command
import RecordQuery.Files
import RecordQuery.Json.Printer
import RecordQuery.Query.Options
import RecordQuery.Region.Set
import RecordQuery.Schema.Registry
import RecordQuery.Settings.Discovery
import RecordQuery.Settings.Merge
import RecordQuery.Settings.Rendering

/-!
# Running commands

Settings are loaded first, whatever the command is, and boundaries only where a command needs
them. A command gives its whole output or fails.
-/

namespace RecordQuery.Command

/-!
## Failures

Why a command that has been asked for cannot be carried out.
-/

inductive Failure where
  | workingDirectory (reason : String)
  | settings (cause : Settings.Error)
  | unreadableQuery (path : Path) (reason : String)
  | unreadableInput (reason : String)
  | regions (cause : Region.Error)
  | query (cause : Query.Error)
deriving DecidableEq

namespace Failure

def message (complaint : Path → Option String) : Failure → String
  | .workingDirectory reason => s!"could not determine current directory: {reason}"
  | .settings cause => s!"failed to load configuration: {cause.message complaint}"
  | .unreadableQuery path reason => s!"failed to read {path.text}: {reason}"
  | .unreadableInput reason => s!"failed to read stdin: {reason}"
  | .regions cause => s!"failed to load regions: {cause.message}"
  | .query cause => cause.message

theorem message_settings (cause : Settings.Error) (complaint : Path → Option String) :
    (settings cause).message complaint =
      s!"failed to load configuration: {cause.message complaint}" :=
  rfl

theorem message_congr {complaint other : Path → Option String} {failure : Failure}
    (h : ∀ path, failure = .settings (.malformed path) → complaint path = other path) :
    failure.message complaint = failure.message other := by
  cases failure with
  | settings cause =>
    rw [message_settings, message_settings,
      Settings.Error.message_congr fun path hpath => h path (congrArg settings hpath)]
  | workingDirectory | unreadableQuery | unreadableInput | regions | query => rfl

end Failure

/-!
## The world of a command

What a command can see of the machine it runs on, as a computation in `m`.
-/

structure World (m : Type → Type) where
  files : Files m
  home : Option Path
  workingDirectory : m (Except String Path)
  standardInput : m (Except String String)
  /-- What the TOML reader says of the file at a path that it refuses, where that is known. -/
  complaint : Path → Option String := fun _ => none

structure Outcome where
  exitCode : UInt8
  output : String
  errors : String
deriving DecidableEq

namespace Outcome

def of (complaint : Path → Option String) : Except Failure String → Outcome
  | .ok output => ⟨0, output, ""⟩
  | .error failure => ⟨1, "", s!"error: {failure.message complaint}\n"⟩

end Outcome

/-! ## Commands -/

open Json (Value)
open Query (Document)
open Region (Category Lookup)

variable {m : Type → Type} [Monad m]

def attempt {ε α : Type} (meaning : ε → Failure) (action : m (Except ε α)) : ExceptT Failure m α :=
  ExceptT.mk do return (← action).mapError meaning

def settingsFiles (world : World m) : Option Path → ExceptT Failure m (List Path)
  | some file => return [file]
  | none => do
    let directory ← attempt .workingDirectory world.workingDirectory
    ExceptT.lift (Settings.discover world.files world.home directory)

def loadSettings (world : World m) (files : List Path) : ExceptT Failure m Settings :=
  attempt .settings (Settings.loadFrom world.files world.home files)

def readQuery (world : World m) (file : Option Path) : ExceptT Failure m Value := do
  let text ← match file with
    | some path => attempt (.unreadableQuery path) (world.files.readText path)
    | none => attempt .unreadableInput world.standardInput
  attempt .query (pure (Query.readValue text))

def loadRegions (world : World m) (settings : Settings) : ExceptT Failure m Lookup :=
  attempt .regions (Lookup.load world.files settings.sources)

/-- Whether a query asks for named areas. One that is malformed asks for none. -/
def asksForAreas (query : Value) : Bool :=
  match Document.ofValue query with
  | .ok document => !document.namedAreas.isEmpty
  | .error _ => false

/-- The schema over known areas: of the version that is asked for, else of the version that is
set, else the newest. -/
def chooseSchema (settings : Settings) (version : Option String) (areas : Lookup) :
    Except Query.Error Schema :=
  (Schema.Registry.builtin ⟨areas, settings.fields⟩).getOrLatest
    (version.or settings.defaultVersion)

def schemaFor (world : World m) (settings : Settings) (version : Option String) (query : Value) :
    ExceptT Failure m Schema := do
  let areas ← if asksForAreas query then loadRegions world settings else pure Lookup.empty
  attempt .query (pure (chooseSchema settings version areas))

def line (text : String) : String := text ++ "\n"

def lines (texts : List String) : String := String.join (texts.map line)

def clauseText (clause : Clause) : Layout → String
  | .outline => clause.outline
  | .compact => line clause.body.compact
  | .wide => line clause.body.wide

def listing (areas : Lookup) (categories : List Category) : Value :=
  .array (categories.map fun category =>
    .object [("category", .string category.name),
      ("names", .array ((areas.names category).map .string))])

def countText (areas : Lookup) (category : Category) : String :=
  let padding := String.ofList (List.replicate (10 - category.name.length) ' ')
  category.name ++ padding ++ s!" {(areas.names category).length} areas"

def regionsText (areas : Lookup) (category : Option Category) (json : Bool) : String :=
  match category, json with
  | some category, true => line (listing areas [category]).wide
  | none, true => line (listing areas Category.all).wide
  | some category, false => lines (areas.names category)
  | none, false => lines (Category.all.map (countText areas))

def originText (home : Option Path) : List Path → String
  | [] => line "# no configuration files found, using defaults"
  | file :: files =>
    line "# merged from (highest precedence first):" ++
      lines ((file :: files).map fun path =>
        "#   " ++ path.text ++ if Settings.isGlobal home path then " (global)" else "")

def output (world : World m) (invocation : Invocation) : ExceptT Failure m String := do
  let files ← settingsFiles world invocation.settingsFile
  let settings ← loadSettings world files
  match invocation.command with
  | .translate file layout =>
    let query ← readQuery world file
    let schema ← schemaFor world settings invocation.schemaVersion query
    return clauseText (← attempt .query (pure (schema.compile query))) layout
  | .validate file =>
    let query ← readQuery world file
    let schema ← schemaFor world settings invocation.schemaVersion query
    attempt .query (pure (schema.validate query))
    return line s!"ok ({schema.version})"
  | .hash file true =>
    let query ← readQuery world file
    return lines (← attempt .query (pure (Document.ofValue query))).canonicalLines
  | .hash file false =>
    let query ← readQuery world file
    -- A key does not depend on areas, so none are loaded.
    let schema ← attempt .query (pure (chooseSchema settings invocation.schemaVersion .empty))
    return line (← attempt .query (pure (schema.cacheKey query)))
  | .regions category json =>
    return regionsText (← loadRegions world settings) category json
  | .settings =>
    return originText world.home files ++ line "" ++ settings.render

def run (world : World m) (invocation : Invocation) : m Outcome := do
  return Outcome.of world.complaint (← (output world invocation).run)

end RecordQuery.Command
