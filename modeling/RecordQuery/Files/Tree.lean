import RecordQuery.Entries
import RecordQuery.Files

/-!
# File trees

A file system held in memory: directories of named files and directories below one root. Paths
are followed name by name from the root or from the working directory.
-/

namespace RecordQuery.Files

inductive Tree where
  | file (bytes : List UInt8)
  | directory (entries : List (String × Tree))

namespace Tree

def empty : Tree := .directory []

def noEntry : String := SystemError.message 2 ""
def notDirectory : String := SystemError.message 20 ""
def isDirectory : String := SystemError.message 21 ""
def nameTooLong : String := SystemError.message 36 ""

def entries : Tree → List (String × Tree)
  | .directory entries => entries
  | .file _ => []

def update (change : Tree → Tree) : (names : List String) → Tree → Tree
  | [], root => change root
  | name :: rest, root =>
    .directory (Entries.insert name
      (update change rest ((Entries.find? name root.entries).getD empty)) root.entries)

def putFile (root : Tree) (names : List String) (bytes : List UInt8) : Tree :=
  root.update (fun _ => .file bytes) names

def putDirectory (root : Tree) (names : List String) : Tree :=
  root.update (fun tree => .directory tree.entries) names

/-- Follows names down from the first of the trees that lead to where one stands; `..` goes back
up, and stays at the root. -/
def follow : List String → List Tree → Except String (List Tree)
  | [], trail => .ok trail
  | name :: names, trail =>
    match trail with
    | .directory entries :: up =>
      -- Empty names stand between repeated slashes and behind the last one.
      if name = "" ∨ name = "." then follow names trail
      else if name = ".." then follow names (if up.isEmpty then trail else up)
      else if 255 < name.utf8ByteSize then .error nameTooLong
      else
        match Entries.find? name entries with
        | some tree => follow names (tree :: trail)
        | none => .error noEntry
    | _ => .error notDirectory

def locate (root : Tree) (workingDirectory : List String) (path : Path) :
    Except String (List Tree) := do
  if path.text.toList.contains '\x00' then throw SystemError.nulInName
  if path.text.isEmpty then throw noEntry
  if 4096 ≤ path.text.utf8ByteSize then throw nameTooLong
  let names := (Text.pieces '/' path.text.toList).map String.ofList
  let start ← if path.isAbsolute then pure [root] else follow workingDirectory [root]
  follow names start

def files (root : Tree) (workingDirectory : List String) : Files Id where
  isFile path :=
    match root.locate workingDirectory path with
    | .ok (.file _ :: _) => true
    | _ => false
  read path :=
    match root.locate workingDirectory path with
    | .error reason => .error (.opening reason)
    | .ok (.file bytes :: _) => .ok bytes
    | .ok _ => .error (.reading isDirectory)

end Tree

end RecordQuery.Files
