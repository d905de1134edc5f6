import RecordQuery.Toml.Reader

/-!
# Layers of settings

What a single settings file says. Everything may be left out; keys that mean nothing here are
passed over. A section may also be written as an array of its values in order.
-/

namespace RecordQuery.Settings

open Toml (Value)

structure FieldsLayer where
  base : Option String
  allText : Option String
  geo : Option String
deriving DecidableEq

structure BoundariesLayer where
  file : Option String
  nameKeys : Option (List String)
deriving DecidableEq

structure RegionsLayer where
  directory : Option String
  /-- By the names of categories, which are not checked yet. -/
  categories : SortedMap BoundariesLayer

structure Layer where
  /-- Whether the search for further files ends here. -/
  root : Option Bool
  /-- The default version, within a section of its own. -/
  schema : Option (Option String)
  fields : Option FieldsLayer
  regions : Option RegionsLayer

def text? : Value → Option String
  | .string text => some text
  | _ => none

def entryText? (entries : List (String × Value)) (key : String) : Option (Option String) :=
  match Entries.find? key entries with
  | some value => (text? value).map some
  | none => some none

def itemText? (items : List Value) (index : Nat) : Option (Option String) :=
  match items[index]? with
  | some value => (text? value).map some
  | none => some none

/-- Whether the entries that mean nothing can be passed over. -/
def skips (known : List String) (entries : List (String × Value)) : Bool :=
  entries.all fun (key, value) => known.contains key || value.isWide

def nameKeys? : Value → Option (List String)
  | .string text => some [text]
  | .array items => items.mapM text?
  | _ => none

def schemaLayer? : Value → Option (Option String)
  | .table entries => do
    let version ← entryText? entries "default_version"
    if skips ["default_version"] entries then some version else none
  | .array items => itemText? items 0
  | .date => some none
  | _ => none

def fieldsLayer? : Value → Option FieldsLayer
  | .table entries => do
    let layer : FieldsLayer :=
      ⟨← entryText? entries "prefix", ← entryText? entries "all_text", ← entryText? entries "geo"⟩
    if skips ["prefix", "all_text", "geo"] entries then some layer else none
  | .array items => do return ⟨← itemText? items 0, ← itemText? items 1, ← itemText? items 2⟩
  | .date => some ⟨none, none, none⟩
  | _ => none

/-- What the table of a category says; its numbers are looked at even if they mean nothing. -/
def boundariesLayer? (value : Value) : Option BoundariesLayer :=
  if !value.isNarrow then none
  else
    match value with
    | .table entries => do
      let file ← entryText? entries "file"
      match Entries.find? "name_keys" entries with
      | some keys => return ⟨file, some (← nameKeys? keys)⟩
      | none => return ⟨file, none⟩
    | .array [] => some ⟨none, none⟩
    | .array [file] => do return ⟨some (← text? file), none⟩
    | .array [file, keys] => do return ⟨some (← text? file), some (← nameKeys? keys)⟩
    | .date => some ⟨none, none⟩
    | _ => none

def regionsLayer? : Value → Option RegionsLayer
  | .table entries => do
    let directory ← entryText? entries "dir"
    let categories ← (entries.filter (·.1 != "dir")).mapM fun (key, value) => do
      return (key, ← boundariesLayer? value)
    return ⟨directory, SortedMap.ofList categories⟩
  | _ => none

def flag? : Value → Option Bool
  | .boolean flag => some flag
  | _ => none

def section? {α : Type} (read : Value → Option α) (entries : List (String × Value))
    (key : String) : Option (Option α) :=
  match Entries.find? key entries with
  | some value => (read value).map some
  | none => some none

namespace Layer

def ofTable? (entries : List (String × Value)) : Option Layer := do
  let layer : Layer :=
    ⟨← section? flag? entries "root", ← section? schemaLayer? entries "schema",
      ← section? fieldsLayer? entries "fields", ← section? regionsLayer? entries "regions"⟩
  if skips ["root", "schema", "fields", "regions"] entries then some layer else none

def parse? (text : String) : Option Layer := (Toml.parse text).bind ofTable?

def isRoot (layer : Layer) : Bool := layer.root == some true

end Layer

end RecordQuery.Settings
