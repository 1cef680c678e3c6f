import BrightScript.Run

/-!
# Pausing a run

Before every statement the run asks whether to go on. A pause puts the run into debug mode and
leaves the decision to the debugger; blocks are not paused at. An error that nothing is going to
catch is handed to the debugger once, if the options ask for it. Ending the run at a pause also
turns that option off.
-/

namespace BrightScript

/-- The fault of a jump that left the function it stands in. -/
def Signal.escape? : Signal → Option (Fault × Location)
  | .exitFor location => some (.exitForWithoutFor, location)
  | .exitWhile location => some (.exitWhileWithoutWhile, location)
  | .continueFor location => some (.continueForWithoutFor, location)
  | .continueWhile location => some (.continueWhileWithoutWhile, location)
  | .goto _ location => some (.missingLineNumber, location)
  | _ => none

namespace Run

def quit {α : Type} (location : Location) : Run α := do
  Routine.modify fun s => { s with options := { s.options with stopOnCrash := false } }
  Routine.leave (.debugExit location)

/-- Hands a pause to the debugger and does what it decides. -/
def pauseAt (pause : Break) : Run Unit := do
  match ← Routine.change (Session.consult · pause) with
  | .proceed => Routine.modify fun s => { s with debugMode := false }
  | .step => return
  | .exit => quit pause.location

def poll : Run Command :=
  Routine.change fun s =>
    let (command, suspension) := s.suspension.poll s.debugMode
    (command, { s with suspension := suspension })

def isBlock : Statement → Bool
  | .block _ => true
  | _ => false

/-- What a statement does about the answer it got before it. -/
def obey (statement : Statement) : Command → Run Unit
  | .proceed => pure ()
  | .pause => do
    Routine.modify fun s => { s with debugMode := true }
    if isBlock statement then return
    else pauseAt ⟨statement.location, statement.describe, none⟩
  | .exit => quit statement.location

def checkpoint (statement : Statement) : Run Unit :=
  poll >>= obey statement

def crashes (s : Session) (e : ScriptError) : Bool :=
  !s.tryMode && s.options.stopOnCrash && e.isFault

/-- Goes on with a signal, after handing it to the debugger if it is an error that nothing
catches. -/
def crash {α : Type} (signal : Signal) : Run α := do
  match signal with
  | .error e =>
    if ← Routine.view (crashes · e) then
      Routine.modify fun s => { s with options := { s.options with stopOnCrash := false } }
      pauseAt ⟨← Routine.view Session.location, "crash", some e⟩
    Routine.leave signal
  | signal => Routine.leave signal

/-- Goes on with a signal that left a function; a jump becomes an error. -/
def escape {α : Type} (signal : Signal) : Run α :=
  match signal.escape? with
  | some (f, location) => fault f location
  | none => Routine.leave signal

end Run

end BrightScript
