import BrightScript.Folder

/-!
# The program

Reads the file and the input that a command needs, and writes what it reports.
-/

open BrightScript

/-- The number of a system error, which some calls report with its sign turned. -/
def systemNumber (code : UInt32) : UInt32 :=
  if code < 0x80000000 then code else 0 - code

/-- The message of a system error, from its number and the system's words for it. -/
def systemMessage (code : UInt32) (details : String) : String :=
  match OpenError.ofNumber? (systemNumber code).toNat with
  | some e => e.message
  | none => s!"{details.capitalize} (os error {systemNumber code})"

def reasonOf : IO.Error → String
  | .noFileOrDirectory _ code details => systemMessage code details
  | .permissionDenied _ code details => systemMessage code details
  | .inappropriateType _ code details => systemMessage code details
  | .invalidArgument _ code details => systemMessage code details
  | e => toString e

def readSource (path : String) : IO (Except String String) := do
  try
    let bytes ← IO.FS.readBinFile path
    match String.fromUTF8? bytes with
    | some text => return .ok text
    | none => return .error "stream did not contain valid UTF-8"
  catch e => return .error (reasonOf e)

def readInput : IO String := do
  let bytes ← (← IO.getStdin).readBinToEnd
  return (String.fromUTF8? bytes).getD ""

def optionVars : List String :=
  [Options.entryPointVar, Options.stopOnCrashVar, Options.maxCallDepthVar, Options.rootVar]

def main (args : List String) : IO UInt32 := do
  let values ← optionVars.mapM fun name => do return (name, ← IO.getEnv name)
  let source ← readSource (args.getD 1 "")
  let input ← if args.head? = some "debug" then readInput else pure ""
  let report := CommandLine.execute ⟨args, fun name => (values.lookup name).join, source, input⟩
  IO.print report.stdout
  IO.eprint report.stderr
  return UInt32.ofNat report.exitCode
