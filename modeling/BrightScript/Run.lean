import BrightScript.Routine
import BrightScript.Session

/-!
# Running

Running is a routine on a session. It ends early with a `Signal`: a jump out of a loop or a
function, a `goto`, the end of the run, or an error. Errors are recorded where they are raised,
unless a `try` is going to catch them.
-/

namespace BrightScript

inductive Signal where
  | exitFor (location : Location)
  | exitWhile (location : Location)
  | continueFor (location : Location)
  | continueWhile (location : Location)
  | goto (label : String) (location : Location)
  | returning (value : Option Value) (location : Location)
  | ending (location : Location)
  | debugExit (location : Location)
  | error (e : ScriptError)

abbrev Run (α : Type) : Type :=
  Routine Signal Session α

namespace Session

/-- The error with the call stack it was raised in, unless it already has one. -/
def traced (s : Session) (e : ScriptError) : ScriptError :=
  { e with backtrace := some (e.backtrace.getD s.stack) }

/-- Records an error unless it is going to be caught. -/
def note (s : Session) (e : ScriptError) : Session :=
  if s.tryMode then s else { s with log := s.log.record e }

end Session

namespace Run

def raise {α : Type} (e : ScriptError) : Run α :=
  fun s =>
    let e := s.traced e
    .exit (.error e) (s.note e)

def fault {α : Type} (f : Fault) (location : Location) : Run α :=
  raise (.ofFault f location)

def faultHere {α : Type} (f : Fault) : Run α := do
  fault f (← Routine.view Session.location)

def write (channel : Channel) (text : String) : Run Unit :=
  Routine.modify (·.write channel text)

def array (r : ArrayRef) : Run ArrayObject :=
  Routine.view fun s => s.heap.array r

def assoc (r : AssocRef) : Run AssocArray :=
  Routine.view fun s => s.heap.assoc r

def newArray (a : ArrayObject) : Run Value :=
  Routine.change fun s =>
    let (ref, heap) := s.heap.newArray a
    (.array ref, { s with heap := heap })

def newAssoc (a : AssocArray) : Run Value :=
  Routine.change fun s =>
    let (ref, heap) := s.heap.newAssoc a
    (.assoc ref, { s with heap := heap })

def modifyArray (r : ArrayRef) (f : ArrayObject → ArrayObject) : Run Unit :=
  Routine.modify fun s => { s with heap := s.heap.modifyArray r f }

def modifyAssoc (r : AssocRef) (f : AssocArray → AssocArray) : Run Unit :=
  Routine.modify fun s => { s with heap := s.heap.modifyAssoc r f }

def modifyScopes (f : Scopes → Scopes) : Run Unit :=
  Routine.modify fun s => { s with scopes := f s.scopes }

def bindLocal (name : Identifier) (v : Value) : Run Unit :=
  if Text.fold name.name = "global" then
    raise (.cast ⟨.interface, name.location⟩ ⟨v.kind, name.location⟩)
  else modifyScopes (·.bind name.name v)

def lookup (name : Identifier) : Run Value :=
  Routine.view fun s => s.scopes.get name

/-- Says which statement or expression is being worked on. -/
def moveTo (location : Location) : Run Unit :=
  Routine.modify fun s => { s with location := location }

/-- The next reading of the clock. -/
def readClock : Run Int :=
  Routine.change fun s => (s.clock 0, { s with clock := fun n => s.clock (n + 1) })

/-- A number that no function has yet. -/
def freshIdentity : Run Identity :=
  Routine.change fun s => (.fresh s.nextIdentity, { s with nextIdentity := s.nextIdentity + 1 })

end Run

end BrightScript
