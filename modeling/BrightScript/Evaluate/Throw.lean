import BrightScript.Evaluate.Evaluator

/-!
# Throwing and catching

A caught error is an associative array with its number, its text and its backtrace. A script can
throw a text, or an associative array whose members become those of the error. An array that has a
backtrace is thrown again: it keeps the backtrace, and where it was thrown is shown beside it.
-/

namespace BrightScript

/-- What a thrown value says about the error. -/
structure Thrown where
  number : Int32
  message : String
  extra : List (String × Value)

namespace Thrown

def malformed (message : String) : Thrown :=
  ⟨Fault.malformedThrow.number, message, []⟩

def textOfNumber (number : Int32) : String :=
  match Fault.ofNumber? number with
  | some f => f.message
  | none => "UNKNOWN ERROR"

/-- Takes a member of a thrown associative array into account, or says what is wrong with it. -/
def withMember (t : Thrown) (entry : Entry) : Except String Thrown :=
  match Text.fold entry.shown, entry.value with
  | "number", .integer n =>
    .ok { t with
      number := n
      message := if t.message.isEmpty then textOfNumber n else t.message }
  | "number", .invalid => .ok t
  | "number", _ => .error "Thrown \"number\" is not an integer."
  | "message", .string text => .ok { t with message := text }
  | "message", .invalid => .ok t
  | "message", _ => .error "Thrown \"message\" is not a string."
  | "rethrown", _ => .ok t
  | "backtrace", .array r =>
    .ok { t with extra := t.extra ++ [("backtrace", .array r), ("rethrown", .boolean true)] }
  | "backtrace", _ => .error "Thrown \"backtrace\" is not an object."
  | _, v => .ok { t with extra := t.extra ++ [(entry.shown, v)] }

def ofEntries (entries : List Entry) : Thrown :=
  match entries.foldlM withMember ⟨Fault.userDefined.number, "", []⟩ with
  | .ok t => t
  | .error reason => malformed reason

def ofValue (h : Heap) (v : Value) : Thrown :=
  match v.unbox with
  | .string message => ⟨Fault.userDefined.number, message, []⟩
  | .assoc r => ofEntries (h.assoc r).toList
  | _ => malformed "Thrown value neither string nor roAssociativeArray."

def toError (t : Thrown) (location : Location) (stack : List Frame) : ScriptError :=
  ⟨t.message, some t.number, location, some stack, t.extra⟩

end Thrown

def ScriptError.members (e : ScriptError) (backtrace : Value) : AssocArray :=
  let plain : AssocArray := .ofMembers
    [("backtrace", backtrace), ("message", .string e.message), ("number", .integer e.number),
     ("rethrown", .boolean false)]
  e.extra.foldl (fun a (key, v) =>
    let a :=
      match v with
      | .boolean true =>
        if key = "rethrown" then a.set "rethrow_backtrace" backtrace true else a
      | _ => a
    a.set key v true) plain

def Session.withTry (s : Session) (tryMode : Bool) : Session :=
  { s with tryMode := tryMode }

namespace Run

def throwValue {α : Type} (v : Value) (location : Location) : Run α := do
  let e ← Routine.view fun s => (Thrown.ofValue s.heap v).toError location s.stack
  raise e

def caught (e : ScriptError) : Run Value := do
  let backtrace ← Routine.change fun s =>
    let (ref, heap) := s.heap.newBacktrace e.location (e.backtrace.getD s.stack)
    (Value.array ref, { s with heap := heap })
  newAssoc (e.members backtrace)

/-- Runs something whose errors are caught. Only errors are. -/
def catching (x : Run Unit) (handler : ScriptError → Run Unit) : Run Unit :=
  fun s =>
    match x (s.withTry true) with
    | .done () t => .done () (t.withTry s.tryMode)
    | .exit (.error e) t => handler e (t.withTry s.tryMode)
    | .exit signal t => .exit signal (t.withTry s.tryMode)
    | .exhausted => .exhausted

end Run

namespace Evaluator

variable (ev : Evaluator)

def catchError (binding : Identifier) (catchBlock : Block) (e : ScriptError) : Run Unit := do
  let v ← Run.caught e
  Run.bindLocal binding v
  ev.executeBlock catchBlock

def tryCatch (tryBlock : Block) (binding : Identifier) (catchBlock : Block) : Run Unit :=
  Run.catching (ev.executeBlock tryBlock) (ev.catchError binding catchBlock)

end Evaluator

end BrightScript
