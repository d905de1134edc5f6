import RecordQuery.Json.Reader.Values
import RecordQuery.Query.Options

/-!
# Query documents

A document is a JSON object with an optional text to search for and an optional filter. A filter
is an object whose only key is an operator.
-/

namespace RecordQuery.Query

open Json (Value)

namespace Filter

mutual

def ofValue (path : String) : Value → Except Error Filter
  | .object [(name, options)] =>
    match Operator.ofName? name with
    | none => .error (.unsupportedOperator path name)
    | some (.term kind) =>
      match Term.decode options kind with
      | .error cause => .error (.malformed (path ++ "." ++ name) cause)
      | .ok leaf => .ok (.term leaf)
    | some (.group connective) =>
      match options with
      | .array [] => .error (.malformed (path ++ "." ++ name) .emptyGroup)
      | .array members =>
        match ofMembers (path ++ "." ++ name) 0 members with
        | .error error => .error error
        | .ok members => .ok (.group connective members)
      | _ => .error (.malformed (path ++ "." ++ name) .membersNotList)
  | .object members => .error (.malformed path (.operatorCount members.length))
  | _ => .error (.malformed path .filterNotObject)

def ofMembers (path : String) (index : Nat) : List Value → Except Error (List Filter)
  | [] => .ok []
  | member :: rest =>
    match ofValue s!"{path}[{index}]" member with
    | .error error => .error error
    | .ok filter =>
      match ofMembers path (index + 1) rest with
      | .error error => .error error
      | .ok filters => .ok (filter :: filters)

end

end Filter

structure Document where
  search : Option String
  filter : Option Filter

namespace Document

def empty : Document := ⟨none, none⟩

def addMember (document : Document) (member : String × Value) : Except Error Document :=
  match member.1 with
  | "search" =>
    match member.2 with
    | .string text => .ok { document with search := some text }
    | _ => .error (.malformed "search" .searchNotString)
  | "filters" =>
    match Filter.ofValue "filters" member.2 with
    | .error error => .error error
    | .ok filter => .ok { document with filter := some filter }
  | key => .error (.malformed "" (.unexpectedKey key))

/-- The document a value stands for. Members are looked at in key order. -/
def ofValue : Value → Except Error Document
  | .object members => members.foldlM addMember empty
  | _ => .error (.malformed "" .documentNotObject)

def namedAreas (document : Document) : List NamedArea :=
  match document.filter with
  | some filter => filter.namedAreas
  | none => []

end Document

def readValue (text : String) : Except Error Value :=
  (Value.parse text).mapError .invalidJson

def Document.parse (text : String) : Except Error Document := do
  Document.ofValue (← readValue text)

end RecordQuery.Query
