import RecordQuery.Command.Arguments
import RecordQuery.Command.Run
import RecordQuery.Files

/-!
# The program

The machine as commands see it, and the program that runs the command of its arguments.
-/

namespace RecordQuery.Machine

/-- The number of an error. Some come negated, as unsigned numbers. -/
def codeOf (code : UInt32) : Nat :=
  if code.toNat < 0x80000000 then code.toNat else 0x100000000 - code.toNat

def message (code : UInt32) (details : String) : String :=
  Files.SystemError.message (codeOf code) details

def reasonOf : IO.Error → String
  | .noFileOrDirectory _ code details => message code details
  | .interrupted _ code details => message code details
  | .alreadyExists _ code details => message code details
  | .invalidArgument _ code details => message code details
  | .permissionDenied _ code details => message code details
  | .resourceExhausted _ code details => message code details
  | .inappropriateType _ code details => message code details
  | .noSuchThing _ code details => message code details
  | .otherError code details => message code details
  | .resourceBusy code details => message code details
  | .resourceVanished code details => message code details
  | .unsupportedOperation code details => message code details
  | .hardwareFault code details => message code details
  | .unsatisfiedConstraints code details => message code details
  | .illegalOperation code details => message code details
  | .protocolError code details => message code details
  | .timeExpired code details => message code details
  | .unexpectedEof => "unexpected end of file"
  | .userError text => text

def attempted {ε α : Type} (meaning : String → ε) (action : IO α) : IO (Except ε α) := do
  try
    return .ok (← action)
  catch error =>
    return .error (meaning (reasonOf error))

def isFile (path : Path) : IO Bool := do
  try
    let place ← IO.FS.realPath path.text
    return (← place.metadata).type == .file
  catch _ =>
    return false

def read (path : Path) : IO (Except ReadFault (List UInt8)) := do
  if path.text.toList.contains '\x00' then
    return .error (.opening Files.SystemError.nulInName)
  match ← attempted ReadFault.opening (IO.FS.Handle.mk path.text .read) with
  | .error fault => return .error fault
  | .ok handle =>
    attempted ReadFault.reading do
      return (← handle.readBinToEnd).toList

def standardInput : IO (Except String String) := do
  match ← attempted id do (← IO.getStdin).readBinToEnd with
  | .error reason => return .error reason
  | .ok bytes => return Files.decode bytes.toList

def versionText : String := "vds 0.1.0\n"

def world : IO (Command.World IO) := do
  let home ← IO.getEnv "HOME"
  return {
    files := ⟨isFile, read⟩
    home := Settings.homeDirectory home none
    workingDirectory := attempted id do return ⟨(← IO.currentDir).toString⟩
    standardInput := standardInput }

end RecordQuery.Machine

open RecordQuery in
def main (arguments : List String) : IO UInt32 := do
  match Command.parse arguments with
  | .error usage =>
    -- Help and what is wrong with a command line are the argument parser's own words.
    if usage = .versionAsked then IO.print Machine.versionText
    return usage.exitCode.toUInt32
  | .ok invocation =>
    let outcome ← Command.run (← Machine.world) invocation
    IO.print outcome.output
    IO.eprint outcome.errors
    return outcome.exitCode.toUInt32
