import BrightScript.Debug.Console
import BrightScript.Debug.Suspension
import BrightScript.ErrorLog
import BrightScript.Options
import BrightScript.Scope

/-!
# Sessions

A session is all that running scripts can change: collections, bindings, open calls, what was
written, the error log, and the state of the debugger. Scripts run one after the other in one
session.
-/

namespace BrightScript

inductive Channel where
  | stdout
  | stderr
  | console
  deriving DecidableEq, Repr

/-- Who decides when a run pauses. -/
inductive Debugger where
  /-- Decisions given one after the other; the run goes on when they are used up. -/
  | scripted (actions : List Action)
  | console (input : List String) (output : Channel)
  /-- A debugger of the host. Its decision can depend on this pause and on those before, the latest
  first. -/
  | host (decide : List BreakContext → Action) (seen : List BreakContext)

/-- What a debugger decides, what it is afterwards, and what it writes where. -/
structure Verdict where
  action : Action
  debugger : Debugger
  channel : Channel
  text : String

/-- A pause of a run, as it is remembered. -/
structure Break where
  location : Location
  statement : String
  error : Option ScriptError

structure Session where
  options : Options
  heap : Heap
  scopes : Scopes
  /-- The open calls, the innermost first. -/
  stack : List Frame
  /-- The statement or expression being worked on. -/
  location : Location
  /-- Whether errors are going to be caught. -/
  tryMode : Bool
  /-- Whether to pause before every statement. -/
  debugMode : Bool
  suspension : Suspension
  debugger : Debugger
  /-- The pauses so far, the latest first. -/
  breaks : List Break
  /-- The number of characters written since the last newline. -/
  column : Nat
  /-- What the clock of the host is going to read, in milliseconds since the session was made. -/
  clock : Nat → Int
  /-- The element a `for each` goes on with after a `goto` into its body. -/
  resumeAt : Option Nat
  log : ErrorLog
  stdout : String
  stderr : String
  console : String
  nextIdentity : Nat

def Scopes.withGlobals (s : Scopes) : Scopes :=
  Builtin.globals.foldl (fun s b => s.defineGlobal b.name (.function (.ofBuiltin b))) s

namespace Session

def new (options : Options) : Session :=
  let (root, heap) := Heap.empty.newAssoc .empty
  { options, heap, scopes := (Scopes.ofRoot root).withGlobals, stack := [], location := .builtin,
    tryMode := false, debugMode := false, suspension := .idle, debugger := .scripted [],
    breaks := [], column := 0, clock := fun _ => 0, resumeAt := none, log := .empty, stdout := "",
    stderr := "", console := "", nextIdentity := 0 }

instance : Inhabited Session := ⟨new .standard⟩

def write (s : Session) (channel : Channel) (text : String) : Session :=
  match channel with
  | .stdout => { s with stdout := s.stdout ++ text }
  | .stderr => { s with stderr := s.stderr ++ text }
  | .console => { s with console := s.console ++ text }

/-- The number of characters after the last newline of a text; without one, they come on top of
those before. -/
def columnAfter (column : Nat) (text : String) : Nat :=
  text.toList.foldl (fun column c => if c = '\n' then 0 else column + 1) column

def advance (s : Session) (text : String) : Session :=
  { s with column := columnAfter s.column text }

def tick (s : Session) (milliseconds : Int) : Session :=
  { s with clock := fun n => s.clock n + milliseconds }

def request (s : Session) (r : Request) : Session :=
  { s with suspension := s.suspension.raise r }

def observe (s : Session) (once : Bool) : Nat × Session :=
  let (id, log) := s.log.subscribe once
  (id, { s with log := log })

def ignore (s : Session) (id : Nat) : Bool × Session :=
  let (found, log) := s.log.unsubscribe id
  (found, { s with log := log })

def breakContext (s : Session) (pause : Break) : BreakContext :=
  ⟨pause.location, pause.statement, backtraceText pause.location s.stack, s.scopes.list .function,
    pause.error⟩

def verdict (s : Session) (pause : Break) : Verdict :=
  match s.debugger with
  | .scripted [] => ⟨.proceed, .scripted [], .console, ""⟩
  | .scripted (action :: rest) => ⟨action, .scripted rest, .console, ""⟩
  | .console input output =>
    let (action, text, unread) := Console.pause s.heap (s.breakContext pause) input
    ⟨action, .console unread output, output, text⟩
  | .host decide seen =>
    let contexts := s.breakContext pause :: seen
    ⟨decide contexts, .host decide contexts, .console, ""⟩

/-- Remembers a pause and asks the debugger what to do. -/
def consult (s : Session) (pause : Break) : Action × Session :=
  ((s.verdict pause).action,
    { s with breaks := pause :: s.breaks, debugger := (s.verdict pause).debugger }.write
      (s.verdict pause).channel (s.verdict pause).text)

end Session

end BrightScript
