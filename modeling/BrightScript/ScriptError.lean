import BrightScript.Trace

/-!
# Errors of scripts

An error has a text and a place. Errors raised by the language itself are faults and have the number
of the fault; a few errors of declarations and assignments have no number of their own. An error
takes the call stack along from where it was raised, and one that was thrown by the script also the
further members of what was thrown.
-/

namespace BrightScript

structure ScriptError where
  message : String
  number? : Option Int32
  location : Location
  /-- The call stack where the error was raised, once it is known. -/
  backtrace : Option (List Frame)
  extra : List (String × Value)

namespace ScriptError

def plain (message : String) (location : Location) : ScriptError :=
  ⟨message, none, location, none, []⟩

def numbered (number : Int32) (message : String) (location : Location) : ScriptError :=
  ⟨message, some number, location, none, []⟩

def ofFault (fault : Fault) (location : Location) : ScriptError :=
  numbered fault.number fault.message location

def isFault (e : ScriptError) : Bool :=
  e.number?.isSome

def number (e : ScriptError) : Int32 :=
  e.number?.getD Fault.internal.number

def text (e : ScriptError) : String :=
  s!"{e.location.text}: {e.message}"

def report (e : ScriptError) : String :=
  s!"{e.text}\nBackTrace:\n" ++ backtraceText e.location (e.backtrace.getD [])

end ScriptError

/-- An operand in a type mismatch. -/
structure Operand where
  kind : Kind
  location : Location

namespace Operand

/-- The place of a mismatch: both operands if they stand in one file, else the first. -/
def span (left : Operand) (right? : Option Operand) : Location :=
  match right? with
  | some right =>
    if right.location.file = left.location.file then left.location.union right.location
    else left.location
  | none => left.location

end Operand

namespace ScriptError

def mismatch (message : String) (left : Operand) (right? : Option Operand) : ScriptError :=
  let operands :=
    match right? with
    | some right => s!"\"{left.kind.name}\" and \"{right.kind.name}\""
    | none => s!"\"{left.kind.name}\""
  numbered Fault.typeMismatch.number s!"{Fault.typeMismatch.message} {message} {operands}."
    (left.span right?)

def cast (target value : Operand) : ScriptError :=
  let kinds := s!"\"{value.kind.name}\" to \"{target.kind.name}\""
  numbered Fault.typeMismatch.number s!"{Fault.typeMismatch.message} Unable to cast {kinds}."
    (target.span (some value))

end ScriptError

end BrightScript
