import RecordQuery.Text.Pieces

/-!
# Paths

A path is kept as it is written. Two paths lead to the same place by name when their components
agree: repeated slashes, a dot between slashes and a slash at the end say nothing, a leading dot
and `..` are components.
-/

namespace RecordQuery

structure Path where
  text : String
deriving DecidableEq

namespace Path

inductive Component where
  | root
  | here
  | up
  | name (name : List Char)
deriving DecidableEq

inductive Start where
  | root
  | here
  | bare
deriving DecidableEq

namespace Start

def components : Start → List Component
  | .root => [.root]
  | .here => [.here]
  | .bare => []

end Start

def isAbsolute (path : Path) : Bool := path.text.toList.head? == some '/'

def parts (path : Path) : Start × List (List Char) :=
  match path.text.toList with
  | '/' :: rest => (.root, Text.pieces '/' rest)
  | text =>
    match Text.pieces '/' text with
    | ['.'] :: rest => (.here, rest)
    | pieces => (.bare, pieces)

/-- Pieces that say nothing. -/
def isIdle (piece : List Char) : Bool := piece == [] || piece == ['.']

def componentOf (piece : List Char) : Component := if piece = ['.', '.'] then .up else .name piece

def components (path : Path) : List Component :=
  let (start, pieces) := path.parts
  start.components ++ (pieces.filter (!isIdle ·)).map componentOf

def samePlace (a b : Path) : Bool := a.components == b.components

/-- The path as seen from `base`; an absolute one stands for itself. -/
def join (base path : Path) : Path :=
  if path.isAbsolute then path
  else if base.text.isEmpty || base.text.toList.getLast? == some '/' then ⟨base.text ++ path.text⟩
  else ⟨base.text ++ "/" ++ path.text⟩

def ofParts (start : Start) (pieces : List (List Char)) : Path :=
  let body := List.intercalate ['/'] pieces
  match start with
  | .root => ⟨String.ofList ('/' :: body)⟩
  | .here => ⟨String.ofList (if pieces.isEmpty then ['.'] else '.' :: '/' :: body)⟩
  | .bare => ⟨String.ofList body⟩

/-- The paths above the one with this start and these pieces, the last piece being first. -/
def above (start : Start) (pieces : List (List Char)) : List Path :=
  match _h : pieces.dropWhile isIdle with
  | [] => if start = .here then [⟨""⟩] else []
  | _ :: rest =>
    let rest' := rest.dropWhile isIdle
    ofParts start rest'.reverse :: above start rest'
termination_by pieces.length
decreasing_by
  have h₁ := (List.dropWhile_sublist (l := pieces) isIdle).length_le
  have h₂ := (List.dropWhile_sublist (l := rest) isIdle).length_le
  rw [_h, List.length_cons] at h₁
  omega

def parents (path : Path) : List Path :=
  let (start, pieces) := path.parts
  above start pieces.reverse

def parent? (path : Path) : Option Path := path.parents.head?

def ancestors (path : Path) : List Path := path :: path.parents

end Path

end RecordQuery
