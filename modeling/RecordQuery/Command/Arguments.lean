import RecordQuery.Command

/-!
# Command lines

A command line is read argument by argument. An option that takes a value has it after an equals
sign or in the next argument, which then cannot start with a dash. What has been given is judged
only when it is complete, that is, when the next option or value without a name comes or the
arguments end; names of options and of commands are judged at once.
-/

namespace RecordQuery.Command

/-!
## Choices

What the arguments of a command line have settled, and the invocation it amounts to.
-/

structure Choices where
  /-- How many times more to log has been asked for. -/
  verbosity : Nat
  settingsFile : Option Path
  schemaVersion : Option String
  outline : Bool
  compact : Bool
  canonical : Bool
  json : Bool
  query : Option Path
  category : Option Region.Category
deriving DecidableEq

namespace Choices

def none : Choices := ⟨0, .none, .none, false, false, false, false, .none, .none⟩

def once {α : Type} (place : Option α) (value : Except Usage α) : Except Usage (Option α) :=
  match place with
  | some _ => .error .argumentConflict
  | .none => value.map some

def switch (place : Bool) : Except Usage Bool :=
  if place then .error .argumentConflict else .ok true

def pathOf (text : String) : Except Usage Path :=
  if text.isEmpty then .error .valueMissing else .ok ⟨text⟩

def categoryOf (text : String) : Except Usage Region.Category :=
  match Region.Category.ofName? text with
  | some category => .ok category
  | .none => .error .valueInvalid

def add (choices : Choices) : Parameter → Option String → Except Usage Choices
  | .help, _ => .error .helpAsked
  | .version, _ => .error .versionAsked
  | .verbose, _ => .ok { choices with verbosity := choices.verbosity + 1 }
  | .outline, _ => do return { choices with outline := ← switch choices.outline }
  | .compact, _ => do return { choices with compact := ← switch choices.compact }
  | .canonical, _ => do return { choices with canonical := ← switch choices.canonical }
  | .json, _ => do return { choices with json := ← switch choices.json }
  | .settingsFile, some text => do
    return { choices with settingsFile := ← once choices.settingsFile (pathOf text) }
  | .schemaVersion, some text => do
    return { choices with schemaVersion := ← once choices.schemaVersion (.ok text) }
  | .query, some text => do return { choices with query := ← once choices.query (pathOf text) }
  | .category, some text => do
    return { choices with category := ← once choices.category (categoryOf text) }
  | _, .none => .error .valueMissing

def command (choices : Choices) : Name → Except Usage Command
  | .translate =>
    match choices.outline, choices.compact with
    | true, true => .error .argumentConflict
    | true, false => .ok (.translate choices.query .outline)
    | false, true => .ok (.translate choices.query .compact)
    | false, false => .ok (.translate choices.query .wide)
  | .hash => .ok (.hash choices.query choices.canonical)
  | .validate => .ok (.validate choices.query)
  | .regions => .ok (.regions choices.category choices.json)
  | .config => .ok .settings

end Choices

/-! ## Arguments -/

inductive Shape where
  | separator
  | long (name : String) (value : Option String)
  | short (letters : List Char)
  | plain
deriving DecidableEq

namespace Shape

def ofLong (text : List Char) : Shape :=
  match text.dropWhile (· != '=') with
  | [] => .long (String.ofList text) none
  | _ :: value => .long (String.ofList (text.takeWhile (· != '='))) (some (String.ofList value))

def of (argument : String) : Shape :=
  match argument.toList with
  | ['-', '-'] => .separator
  | '-' :: '-' :: text => ofLong text
  | ['-'] => .plain
  | '-' :: letters => .short letters
  | _ => .plain

end Shape

/-- How far the arguments of a scope have been read. -/
structure Progress where
  choices : Choices
  /-- What was given last, with its value if that has come, while it can still wait. -/
  pending : Option (Parameter × Option String)
  /-- Whether only values follow, because of a separator. -/
  valuesOnly : Bool
  /-- Whether the value without a name has been given. -/
  plainGiven : Bool

namespace Progress

def start : Progress := ⟨Choices.none, none, false, false⟩

def awaited? (progress : Progress) : Option Parameter :=
  match progress.pending with
  | some (parameter, none) => some parameter
  | _ => none

def settled (progress : Progress) : Except Usage Choices :=
  match progress.pending with
  | none => .ok progress.choices
  | some (parameter, value) => progress.choices.add parameter value

def give (progress : Progress) (parameter : Parameter) (value : Option String) :
    Except Usage Progress := do
  let choices ← (← progress.settled).add parameter value
  return { progress with choices := choices, pending := none }

/-- Goes on with something that is not complete or that can wait. -/
def hold (progress : Progress) (parameter : Parameter) (value : Option String) :
    Except Usage Progress := do
  return { progress with choices := ← progress.settled, pending := some (parameter, value) }

def option (progress : Progress) (parameter : Parameter) (value : Option String) :
    Except Usage Progress :=
  match parameter.takesValue, value with
  | true, some _ => progress.give parameter value
  | true, none => progress.hold parameter none
  | false, some _ => .error .valueUnwanted
  | false, none => progress.give parameter none

def letters (progress : Progress) (scope : Scope) : List Char → Except Usage Progress
  | [] => .ok progress
  | letter :: rest =>
    match scope.short? letter with
    | none => .error .argumentUnknown
    | some parameter =>
      match progress.option parameter none with
      | .error usage => .error usage
      | .ok progress => progress.letters scope rest

/-- Why a value without a name has no place. Where a command is due, it is a command that is not
known, but after a separator the name of a command is a value. -/
def misplaced (progress : Progress) (scope : Scope) (text : String) : Usage :=
  match scope with
  | .program =>
    if progress.valuesOnly && scope.endsAt text then .argumentUnknown else .commandUnknown
  | .command _ => .argumentUnknown

def plain (progress : Progress) (scope : Scope) (text : String) : Except Usage Progress :=
  match scope.plain?, progress.plainGiven with
  | some parameter, false => do
    return { ← progress.hold parameter (some text) with plainGiven := true }
  | _, _ => .error (progress.misplaced scope text)

def step (progress : Progress) (scope : Scope) (argument : String) : Except Usage Progress :=
  if progress.valuesOnly then progress.plain scope argument
  else
    match Shape.of argument with
    | .separator => .ok { progress with valuesOnly := true }
    | .long name value =>
      match scope.long? name with
      | some parameter => progress.option parameter value
      | none => .error .argumentUnknown
    | .short letters => progress.letters scope letters
    | .plain =>
      match progress.awaited? with
      | some parameter => .ok { progress with pending := some (parameter, some argument) }
      | none => progress.plain scope argument

/-- Whether an argument ends the scope: the name of a command does, unless it is a value. -/
def stopsAt (progress : Progress) (scope : Scope) (argument : String) : Bool :=
  !progress.valuesOnly && progress.awaited?.isNone && scope.endsAt argument

def run (progress : Progress) (scope : Scope) :
    List String → Except Usage (Progress × List String)
  | [] => .ok (progress, [])
  | argument :: rest =>
    if progress.stopsAt scope argument then .ok (progress, argument :: rest)
    else
      match progress.step scope argument with
      | .error usage => .error usage
      | .ok progress => progress.run scope rest

end Progress

def helpOn : List String → Usage
  | [] => .helpAsked
  | [word] => if Scope.program.endsAt word then .helpAsked else .commandUnknown
  | _ => .commandUnknown

def choicesAfter (name : Name) (arguments : List String) : Except Usage Choices := do
  let (progress, _) ← Progress.start.run (.command name) arguments
  progress.settled

/-- The invocation that a command line stands for. What is chosen after the name of the command
counts before what is chosen in front of it, and is judged first. -/
def parse (arguments : List String) : Except Usage Invocation := do
  let (progress, rest) ← Progress.start.run .program arguments
  match rest with
  | [] =>
    -- Without a command everything that was given has to be judged first.
    if (← progress.settled) = Choices.none then throw .nothingGiven
    throw .commandMissing
  | word :: rest =>
    match Name.ofText? word with
    | none => throw (helpOn rest)
    | some name =>
      -- The inner scope is complete before the outer one is settled.
      let own ← choicesAfter name rest
      let command ← own.command name
      let outer ← progress.settled
      return {
        settingsFile := own.settingsFile.or outer.settingsFile
        schemaVersion := own.schemaVersion.or outer.schemaVersion
        command := command }

end RecordQuery.Command
