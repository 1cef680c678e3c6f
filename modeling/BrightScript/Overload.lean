import BrightScript.ScriptError
import BrightScript.Value.Coercion

/-!
# Matching arguments to signatures

A function may have several signatures; the first one that the arguments satisfy is used, with the
arguments turned into the kinds of its parameters. When none is satisfied, the error says for every
signature all that is wrong.
-/

namespace BrightScript

/-- A reason why arguments do not satisfy a signature. -/
inductive Mismatch where
  | tooFew (received : Nat)
  | tooMany (expected received : Nat)
  | argument (name : String) (expected received : Kind)
  deriving DecidableEq, Repr

namespace Signature

def countMismatch (s : Signature) (count : Nat) : List Mismatch :=
  if count < s.requiredCount then [.tooFew count]
  else if !s.variadic && s.arguments.length < count then [.tooMany s.arguments.length count]
  else []

/-- Turns arguments into the kinds of the parameters at their positions. Arguments beyond the
parameters stay as they are. -/
def coerceAll : List Argument → List Value → List Mismatch × List Value
  | p :: ps, v :: vs =>
    let (mismatches, coerced) := coerceAll ps vs
    match v.coerce? p.kind with
    | some w => (mismatches, w :: coerced)
    | none => (.argument p.name p.kind v.kind :: mismatches, v :: coerced)
  | _, vs => ([], vs)

def mismatches (s : Signature) (args : List Value) : List Mismatch :=
  s.countMismatch args.length ++ (coerceAll s.arguments args).1

def satisfy? (s : Signature) (args : List Value) : Option (List Value) :=
  if (s.mismatches args).isEmpty then some (coerceAll s.arguments args).2 else none

def argumentText (a : Argument) : String :=
  let text := s!"{a.name} as {a.kind.name}"
  if a.default?.isSome then "[" ++ text ++ "]" else text

def headline (s : Signature) (name : String) : String :=
  let list := ", ".intercalate (s.arguments.map argumentText)
  s!"function {name}({list}) as {s.returns.name}:"

def mismatchText (s : Signature) (name : String) : Mismatch → String
  | .tooFew received =>
    s!"* {name} requires at least {s.requiredCount} argument(s), but received {received}."
  | .tooMany expected received =>
    s!"* {name} accepts at most {expected} argument(s), but received {received}."
  | .argument argument expected received =>
    s!"* Argument '{argument}' must be of type {expected.name}, but received {received.name}."

def mismatchReport (s : Signature) (name : String) (args : List Value) : String :=
  let details := (s.mismatches args).map fun m => "        " ++ s.mismatchText name m
  "\n".intercalate (("    " ++ s.headline name) :: details)

end Signature

/-- A signature that arguments satisfy, its place among the signatures, and the arguments in the
kinds of its parameters. -/
structure Satisfied where
  index : Nat
  signature : Signature
  args : List Value

/-- The first of some signatures that the arguments satisfy. Signatures are counted from `index`. -/
def firstSatisfied (args : List Value) : (index : Nat) → List Signature → Option Satisfied
  | _, [] => none
  | index, s :: rest =>
    match s.satisfy? args with
    | some coerced => some ⟨index, s, coerced⟩
    | none => firstSatisfied args (index + 1) rest

def ScriptError.noOverload (name : String) (overloads : List Signature) (args : List Value)
    (location : Location) : ScriptError :=
  let which :=
    if overloads.length = 1 then s!"{name}'s signature." else s!"any of {name}'s signatures."
  let parts := ("Provided arguments don't match " ++ which) ::
    overloads.map fun s => s.mismatchReport name args
  .numbered Fault.typeMismatch.number (Fault.typeMismatch.message ++ ": " ++ "\n".intercalate parts)
    location

end BrightScript
