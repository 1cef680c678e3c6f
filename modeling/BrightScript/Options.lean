import BrightScript.Decimal.Reading
import BrightScript.Text.Blank
import BrightScript.Text.Fold

/-!
# Options of a run

How a script is run can be set by environment variables. A variable that is missing or blank leaves
the default; one with a value that cannot be read is an error, and the first such error counts.
-/

namespace BrightScript

structure Options where
  entryPoint : Bool
  /-- Whether the debugger opens on an error that nothing catches. -/
  stopOnCrash : Bool
  maxCallDepth : Nat
  root : Option String
  deriving DecidableEq, Repr

inductive OptionsError where
  | invalidBool (var value : String)
  | invalidNumber (var value : String)
  deriving DecidableEq, Repr

def OptionsError.message : OptionsError → String
  | .invalidBool var value => s!"{var} must be a boolean (true/false/1/0), got `{value}`"
  | .invalidNumber var value => s!"{var} must be a positive integer, got `{value}`"

namespace Options

def standard : Options :=
  ⟨true, false, 1024, none⟩

instance : Inhabited Options := ⟨standard⟩

def entryPointVar : String := "BRS_ENTRY_POINT"
def stopOnCrashVar : String := "BRS_STOP_ON_CRASH"
def maxCallDepthVar : String := "BRS_MAX_CALL_DEPTH"
def rootVar : String := "BRS_ROOT"

/-- The value of a variable, unless it is missing or blank. -/
def lookup (env : String → Option String) (name : String) : Option String :=
  (env name).filter fun value => !(Text.trim value).isEmpty

def readBool? (value : String) : Option Bool :=
  let word := Text.fold (Text.trim value)
  if ["1", "true", "yes", "on"].contains word then some true
  else if ["0", "false", "no", "off"].contains word then some false
  else none

/-- The number above the largest that a setting can hold. -/
def countBound : Nat := Nat.pow 2 64

def readCount? (value : String) : Option Nat :=
  let digits :=
    match (Text.trim value).toList with
    | '+' :: digits => digits
    | digits => digits
  (Decimal.readNat 10 digits).filter fun n => 0 < n && n < countBound

def override {α : Type} (env : String → Option String) (name : String)
    (fail : String → String → OptionsError) (read? : String → Option α) (default : α) :
    Except OptionsError α :=
  match lookup env name with
  | none => .ok default
  | some value =>
    match read? value with
    | some a => .ok a
    | none => .error (fail name value)

def ofEnvironment (env : String → Option String) : Except OptionsError Options := do
  let entryPoint ← override env entryPointVar .invalidBool readBool? standard.entryPoint
  let stopOnCrash ← override env stopOnCrashVar .invalidBool readBool? standard.stopOnCrash
  let maxCallDepth ← override env maxCallDepthVar .invalidNumber readCount? standard.maxCallDepth
  return ⟨entryPoint, stopOnCrash, maxCallDepth, lookup env rootVar⟩

end Options

end BrightScript
