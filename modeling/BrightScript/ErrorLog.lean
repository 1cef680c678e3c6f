import BrightScript.ScriptError

/-!
# The error log

Errors that nothing catches are recorded. Observers are told about every error recorded after they
subscribed, in the order of their subscription; an observer that subscribed for one error is dropped
after it. Numbers of observers are never used twice.
-/

namespace BrightScript

/-- Someone who is told about errors. -/
structure Observer where
  id : Nat
  /-- Whether to be told about one error only. -/
  once : Bool
  deriving DecidableEq, Repr

/-- A message to an observer. -/
structure Notice where
  observer : Nat
  error : ScriptError

/-- The recorded errors, those who are told about them, and what they were told. -/
structure ErrorLog where
  errors : List ScriptError
  observers : List Observer
  /-- A counter without an end: no host subscribes as often as a machine word can count. -/
  nextId : Nat
  notices : List Notice

namespace ErrorLog

def empty : ErrorLog :=
  ⟨[], [], 0, []⟩

instance : Inhabited ErrorLog := ⟨empty⟩

def subscribe (log : ErrorLog) (once : Bool) : Nat × ErrorLog :=
  (log.nextId,
    { log with observers := log.observers ++ [⟨log.nextId, once⟩], nextId := log.nextId + 1 })

/-- Removes an observer, if there is one of that number. -/
def unsubscribe (log : ErrorLog) (id : Nat) : Bool × ErrorLog :=
  (log.observers.any (·.id == id),
    { log with observers := log.observers.filter (·.id != id) })

def record (log : ErrorLog) (e : ScriptError) : ErrorLog :=
  { log with
    errors := log.errors ++ [e]
    observers := log.observers.filter (!·.once)
    notices := log.notices ++ log.observers.map fun o => ⟨o.id, e⟩ }

end ErrorLog

end BrightScript
