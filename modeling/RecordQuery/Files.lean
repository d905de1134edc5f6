import RecordQuery.Path

/-!
# Files

What the library asks of a file system: whether a path is a regular file, and what is in it.
-/

namespace RecordQuery

/-- Why a file cannot be read: it cannot be opened, or it can and yields nothing. -/
inductive ReadFault where
  | opening (reason : String)
  | reading (reason : String)
deriving DecidableEq

namespace ReadFault

def reason : ReadFault → String
  | .opening reason => reason
  | .reading reason => reason

end ReadFault

structure Files (m : Type → Type) where
  isFile : Path → m Bool
  read : Path → m (Except ReadFault (List UInt8))

namespace Files

variable {m : Type → Type} [Monad m]

def decode (bytes : List UInt8) : Except String String :=
  match String.fromUTF8? ⟨bytes.toArray⟩ with
  | some text => .ok text
  | none => .error "stream did not contain valid UTF-8"

def readText (files : Files m) (path : Path) : m (Except String String) := do
  match ← files.read path with
  | .error fault => return .error fault.reason
  | .ok bytes => return decode bytes

end Files

end RecordQuery

namespace RecordQuery.Files.SystemError

/-!
## Errors of the operating system

What is said of an error that the operating system gives as a number: its cause, and the number.
-/

def cause? : Nat → Option String
  | 1 => some "Operation not permitted"
  | 2 => some "No such file or directory"
  | 4 => some "Interrupted system call"
  | 5 => some "Input/output error"
  | 12 => some "Cannot allocate memory"
  | 13 => some "Permission denied"
  | 20 => some "Not a directory"
  | 21 => some "Is a directory"
  | 22 => some "Invalid argument"
  | 23 => some "Too many open files in system"
  | 24 => some "Too many open files"
  | 36 => some "File name too long"
  | 40 => some "Too many levels of symbolic links"
  | _ => none

/-- The text of an error; `details` stand in for a cause that has no name here. -/
def message (code : Nat) (details : String) : String :=
  s!"{(cause? code).getD details} (os error {code})"

/-- A file name is handed to the system as characters up to a NUL, so it cannot hold one. -/
def nulInName : String := "file name contained an unexpected NUL byte"

end RecordQuery.Files.SystemError
