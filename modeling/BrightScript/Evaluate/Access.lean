import BrightScript.Evaluate.Evaluator
import BrightScript.Library.Globals

/-!
# Members and indexes

A member of an associative array comes before a method of the same name. A function read from an
associative array remembers it. Indexing reads outside of an array as `invalid`; a member that is
not there is `invalid` in a collection and an error anywhere else.
-/

namespace BrightScript

def Value.readFrom (v : Value) (source : AssocRef) : Value :=
  match v with
  | .function c => .function (c.withContext source)
  | v => v

def Heap.member? (h : Heap) (source : Value) (name : String) : Option Value :=
  match source with
  | .assoc r => ((h.assoc r).get? name).map (·.readFrom r)
  | _ => none

namespace Run

/-- What a name after a dot stands for when it is no member. -/
def methodOf (source : Value) (name : Identifier) : Run Value :=
  match source.method? name.name with
  | some c => pure (.function c)
  | none =>
    if source.isCollection then pure .invalid
    else
      match source with
      | .invalid | .uninitialized => fault .dotOnNonObject name.location
      | _ => fault .memberFunctionNotFound name.location

def dottedGet (source : Value) (name : Identifier) (optional : Bool) : Run Value := do
  match ← Routine.view fun s => s.heap.member? source name.name with
  | some v => return v
  | none => if source.isInvalid && optional then return .invalid else methodOf source name

def attributeGet (source : Value) (name : Identifier) : Run Value :=
  if source.isInvalid then fault .dotOnNonObject name.location
  else fault .memberFunctionNotFound name.location

end Run

namespace Evaluator

variable (ev : Evaluator)

def arrayIndex (index : Expr) : Run Int64 := do
  let v ← ev.evaluate index
  match v.toInt64? with
  | some n => return n
  | none => Run.fault .nonNumericArrayIndex index.location

def assocKey (indexes : List Expr) (closing : Location) : Run String := do
  match indexes with
  | [index] =>
    let v ← ev.evaluate index
    match v.unbox with
    | .string key => return key
    | other =>
      Run.raise (.mismatch "\"String\" should be used as key, but received"
        ⟨other.kind, index.location⟩ none)
  | _ => Run.fault .wrongNumberOfParams closing

def follow (location : Location) (current : Value) : List Expr → Run Value
  | [] => pure current
  | index :: rest => do
    let n ← ev.arrayIndex index
    match current with
    | .array r => follow location ((← Run.array r).get n) rest
    | _ => Run.fault .badNumberOfIndexes location

def indexedGet (object : Expr) (indexes : List Expr) (optional : Bool)
    (closing location : Location) : Run Value := do
  let source ← ev.evaluate object
  match source with
  | .assoc r =>
    let key ← ev.assocKey indexes closing
    let found ← Routine.view fun s => s.heap.member? (.assoc r) key
    return found.getD .invalid
  | .array _ => ev.follow location source indexes
  | .invalid => if optional then return .invalid else Run.fault .undimmedArray location
  | _ => Run.fault .undimmedArray location

def dottedSet (object : Expr) (name : Identifier) (v : Value) : Run Unit := do
  match ← ev.evaluate object with
  | .assoc r => Run.modifyAssoc r (·.set name.name v false)
  | .array _ => Run.fault .nonNumericArrayIndex name.location
  | _ => Run.fault .badTarget name.location

def storeThrough (closing location : Location) (v : Value) (current : Value) :
    List Expr → Run Unit
  | [] => pure ()
  | index :: rest => do
    let n ← ev.arrayIndex index
    match current with
    | .array r =>
      if rest.isEmpty then
        match ArrayObject.place n with
        | .ok place => Run.modifyArray r (·.put place v)
        | .error f => Run.fault f closing
      else storeThrough closing location v ((← Run.array r).get n) rest
    | _ => Run.fault .badNumberOfIndexes location

def indexedSet (object : Expr) (indexes : List Expr) (v : Value) (closing location : Location) :
    Run Unit := do
  let target ← ev.evaluate object
  match target with
  | .assoc r =>
    let key ← ev.assocKey indexes closing
    Run.modifyAssoc r (·.set key v true)
  | .array _ => ev.storeThrough closing location v target indexes
  | _ => Run.fault .badTarget object.location

end Evaluator

end BrightScript
