import RecordQuery.Path
import RecordQuery.Region.Category

/-!
# Commands

What the program can be asked to do. A query comes from a file or, without one, from the
standard input.
-/

namespace RecordQuery

/-- How a compiled query is shown: as an outline, or as a search body on one line or on many. -/
inductive Layout where
  | outline
  | compact
  | wide
deriving DecidableEq

inductive Command where
  | translate (query : Option Path) (layout : Layout)
  | hash (query : Option Path) (canonical : Bool)
  | validate (query : Option Path)
  | regions (category : Option Region.Category) (json : Bool)
  | settings
deriving DecidableEq

/-- A command, with the settings file to use instead of those that would be found, and the
version of the query language to use instead of the one that is set. -/
structure Invocation where
  settingsFile : Option Path
  schemaVersion : Option String
  command : Command
deriving DecidableEq

end RecordQuery

namespace RecordQuery.Command

/-!
## Usage

Why a command line does not lead to a command that can run.
-/

inductive Usage where
  | helpAsked
  | versionAsked
  /-- There are no arguments at all. -/
  | nothingGiven
  | commandMissing
  | commandUnknown
  | argumentUnknown
  /-- Two arguments exclude each other, or one is given twice. -/
  | argumentConflict
  /-- There is no value, or an empty one where something has to be named. -/
  | valueMissing
  /-- There is a value for a switch. -/
  | valueUnwanted
  | valueInvalid
deriving DecidableEq

namespace Usage

def exitCode : Usage → UInt8
  | .helpAsked => 0
  | .versionAsked => 0
  | _ => 2

end Usage

/-!
## Parameters

The names of commands and of what they can be given: options, which have names, and one value
without a name. Some options can stand before the name of the command as well as after it.
-/

inductive Name where
  | translate
  | hash
  | validate
  | regions
  | config
deriving DecidableEq

namespace Name

def text : Name → String
  | .translate => "translate"
  | .hash => "hash"
  | .validate => "validate"
  | .regions => "regions"
  | .config => "config"

def all : List Name := [.translate, .hash, .validate, .regions, .config]

def ofText? (text : String) : Option Name := all.find? (·.text == text)

theorem ofText?_text (name : Name) : ofText? name.text = some name := by
  cases name <;> decide

end Name

def helpWord : String := "help"

inductive Parameter where
  | help
  | version
  | verbose
  | settingsFile
  | schemaVersion
  | outline
  | compact
  | canonical
  | json
  | query
  | category
deriving DecidableEq

namespace Parameter

def long? : Parameter → Option String
  | .help => some "help"
  | .version => some "version"
  | .verbose => some "verbose"
  | .settingsFile => some "config"
  | .schemaVersion => some "version-schema"
  | .outline => some "tree"
  | .compact => some "compact"
  | .canonical => some "canonical"
  | .json => some "json"
  | .query => none
  | .category => none

def short? : Parameter → Option Char
  | .help => some 'h'
  | .version => some 'V'
  | .verbose => some 'v'
  | _ => none

def takesValue : Parameter → Bool
  | .settingsFile => true
  | .schemaVersion => true
  | .query => true
  | .category => true
  | _ => false

end Parameter

/-- Where an argument stands: before the name of the command, or after it. -/
inductive Scope where
  | program
  | command (name : Name)
deriving DecidableEq

namespace Scope

def shared : List Parameter := [.help, .verbose, .settingsFile, .schemaVersion]

def options : Scope → List Parameter
  | .program => .version :: shared
  | .command .translate => .outline :: .compact :: shared
  | .command .hash => .canonical :: shared
  | .command .validate => shared
  | .command .regions => .json :: shared
  | .command .config => shared

def plain? : Scope → Option Parameter
  | .command .translate => some .query
  | .command .hash => some .query
  | .command .validate => some .query
  | .command .regions => some .category
  | _ => none

def long? (scope : Scope) (name : String) : Option Parameter :=
  scope.options.find? (·.long? == some name)

def short? (scope : Scope) (letter : Char) : Option Parameter :=
  scope.options.find? (·.short? == some letter)

def endsAt (scope : Scope) (word : String) : Bool :=
  scope == .program && (word == helpWord || (Name.ofText? word).isSome)

end Scope

end RecordQuery.Command
