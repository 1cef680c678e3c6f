/-!
# Suspension

Before every statement a run asks whether to go on. The answer comes from a flag that a host can
raise, from a list prepared beforehand, or from a provider that the host brings along. With nothing
to say, a flag or a list answers to go on, or to pause again when the run is being debugged.
-/

namespace BrightScript

inductive Command where
  | proceed
  | pause
  | exit
  deriving DecidableEq, Repr, Inhabited

inductive Request where
  | pause
  | exit
  deriving DecidableEq, Repr, Inhabited

inductive Suspension where
  | flag (pending : Option Request)
  | scripted (answers : List Command)
  /-- A provider of the host. Its answer can depend on whether the run was being debugged at this
  question and at those before, the latest first. -/
  | host (answer : List Bool → Command) (asked : List Bool)

namespace Suspension

/-- A flag that nobody raised. -/
def idle : Suspension :=
  flag none

instance : Inhabited Suspension := ⟨idle⟩

/-- The answer when there is nothing to say. -/
def unasked (debugMode : Bool) : Command :=
  if debugMode then .pause else .proceed

/-- Raises the flag; the latest request counts. -/
def raise (s : Suspension) (r : Request) : Suspension :=
  match s with
  | flag _ => flag (some r)
  | scripted answers => scripted answers
  | host answer asked => host answer asked

def poll (s : Suspension) (debugMode : Bool) : Command × Suspension :=
  match s with
  | flag (some .exit) => (.exit, flag none)
  | flag (some .pause) => (.pause, flag none)
  | flag none => (unasked debugMode, flag none)
  | scripted (answer :: rest) => (answer, scripted rest)
  | scripted [] => (unasked debugMode, scripted [])
  | host answer asked => (answer (debugMode :: asked), host answer (debugMode :: asked))

end Suspension

end BrightScript
