import RecordQuery.Settings.Merge

/-!
# Finding settings files

Each directory from the working directory upwards may have a settings file. The search ends at a
file that says it is the root; otherwise the file of the home directory comes last.
-/

namespace RecordQuery.Settings

def fileName : Path := ⟨".vds.toml"⟩

/-- The directory a process calls its home: what the environment says, unless that is nothing,
else what the account says. -/
def homeDirectory (environment account : Option String) : Option Path :=
  match environment with
  | some text => if text.isEmpty then account.map Path.mk else some ⟨text⟩
  | none => account.map Path.mk

def globalFile? (home : Option Path) : Option Path := home.map (·.join fileName)

def isGlobal (home : Option Path) (path : Path) : Bool :=
  match globalFile? home with
  | some file => path.samePlace file
  | none => false

variable {m : Type → Type} [Monad m]

def isRootFile (files : Files m) (path : Path) : m Bool := do
  match ← files.readText path with
  | .error _ => return false
  | .ok text => return (Layer.parse? text).any Layer.isRoot

/-- The settings files among candidates up to the first root, and whether there is a root. -/
def searchUp (files : Files m) : List Path → m (List Path × Bool)
  | [] => return ([], false)
  | candidate :: rest => do
    if ← files.isFile candidate then
      if ← isRootFile files candidate then return ([candidate], true)
      else
        let (found, root) ← searchUp files rest
        return (candidate :: found, root)
    else searchUp files rest

/-- All settings files that count for a directory, the one that takes precedence first. -/
def discover (files : Files m) (home : Option Path) (directory : Path) : m (List Path) := do
  let (found, root) ← searchUp files (directory.ancestors.map (·.join fileName))
  if root then return found
  match globalFile? home with
  | none => return found
  | some file =>
    if (← files.isFile file) && !found.any (·.samePlace file) then return found ++ [file]
    else return found

def loadFile (files : Files m) (path : Path) : m (Except Error Source) := do
  match ← files.readText path with
  | .error reason => return .error (.unreadableFile path reason)
  | .ok text =>
    match Layer.parse? text with
    | some layer => return .ok ⟨path, layer⟩
    | none => return .error (.malformed path)

def loadFiles (files : Files m) : List Path → m (Except Error (List Source))
  | [] => return .ok []
  | path :: rest => do
    match ← loadFile files path with
    | .error error => return .error error
    | .ok source =>
      match ← loadFiles files rest with
      | .error error => return .error error
      | .ok sources => return .ok (source :: sources)

def loadFrom (files : Files m) (home : Option Path) (paths : List Path) :
    m (Except Error Settings) := do
  match ← loadFiles files paths with
  | .error error => return .error error
  | .ok sources => return merge home sources

def load (files : Files m) (home : Option Path) (directory : Path) : m (Except Error Settings) := do
  loadFrom files home (← discover files home directory)

end RecordQuery.Settings
