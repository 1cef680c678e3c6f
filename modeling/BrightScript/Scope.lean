import Std.Data.ExtTreeMap
import BrightScript.ScriptError

/-!
# Scopes

A name is looked up in the variables of the current call, then among the declared functions of the
script, then among the global functions; `m` and `line_num` are answered before any of them.
Declared and global functions are shared by all calls, while every call has an `Activation` of its
own: its variables, its `m`, and the label that a `goto` in it is looking for.
-/

namespace BrightScript

/-- Values by folded names. -/
abbrev Bindings : Type :=
  Std.ExtTreeMap String Value compare

/-- The three places where a name can be bound. -/
inductive Scope where
  | global
  | module
  | function
  deriving DecidableEq, Repr

/-- What belongs to one call. -/
structure Activation where
  locals : Bindings
  /-- What `m` refers to. -/
  m : AssocRef
  /-- The folded label a `goto` is looking for. Labels are not empty. -/
  pending : Option String

/-- All bindings that can be seen at a point of a run. -/
structure Scopes where
  globals : Bindings
  modules : Bindings
  definitions : Std.ExtTreeMap String Location compare
  active : Activation
  /-- The `m` of the outermost level. -/
  rootM : AssocRef

namespace Activation

def fresh (m : AssocRef) : Activation :=
  ⟨∅, m, none⟩

end Activation

namespace Scopes

/-- No bindings, and the given `m`. -/
def ofRoot (m : AssocRef) : Scopes :=
  ⟨∅, ∅, ∅, .fresh m, m⟩

def m (s : Scopes) : AssocRef :=
  s.active.m

def setM (s : Scopes) (m : AssocRef) : Scopes :=
  { s with active := { s.active with m := m } }

/-- Binds a variable of the current call. Binding `m` to an associative array also replaces what `m`
refers to. -/
def bind (s : Scopes) (name : String) (v : Value) : Scopes :=
  let key := Text.fold name
  let m :=
    match v with
    | .assoc r => if key = "m" then r else s.active.m
    | _ => s.active.m
  { s with active := { s.active with locals := s.active.locals.insert key v, m := m } }

/-- Binds a variable of the current call. The name `global` is taken when the binding has a location
to complain about. -/
def defineLocal (s : Scopes) (name : String) (v : Value) (location? : Option Location) :
    Except ScriptError Scopes :=
  match location? with
  | some location =>
    if Text.fold name = "global" then .error (.cast ⟨.interface, location⟩ ⟨v.kind, location⟩)
    else .ok (s.bind name v)
  | none => .ok (s.bind name v)

def defineModule (s : Scopes) (name : String) (v : Value) (location? : Option Location) : Scopes :=
  let key := Text.fold name
  let definitions :=
    match location? with
    | some location => s.definitions.insert key location
    | none => s.definitions
  { s with modules := s.modules.insert key v, definitions := definitions }

def defineGlobal (s : Scopes) (name : String) (v : Value) : Scopes :=
  { s with globals := s.globals.insert (Text.fold name) v }

def define (s : Scopes) (scope : Scope) (name : String) (v : Value) (location? : Option Location) :
    Except ScriptError Scopes :=
  match scope with
  | .function => s.defineLocal name v location?
  | .module => .ok (s.defineModule name v location?)
  | .global => .ok (s.defineGlobal name v)

def bindings (s : Scopes) : Scope → Bindings
  | .global => s.globals
  | .module => s.modules
  | .function => s.active.locals

def get? (s : Scopes) (name : Identifier) : Option Value :=
  let key := Text.fold name.name
  if key = "m" then some (.assoc s.active.m)
  else if key = "line_num" then some (.integer (Int32.ofNat name.location.start.line))
  else s.active.locals[key]? <|> s.modules[key]? <|> s.globals[key]?

def get (s : Scopes) (name : Identifier) : Value :=
  (s.get? name).getD .uninitialized

def missingText (name : String) : String :=
  s!"Undefined variable '{name}'"

/-- Whether a name is bound in one of the given scopes; `m` always is. -/
def has (s : Scopes) (name : String) (scopes : List Scope) : Bool :=
  let key := Text.fold name
  key == "m" || scopes.any fun scope => (s.bindings scope).contains key

/-- Removes a name from a scope; global functions stay. -/
def remove (s : Scopes) (name : String) (scope : Scope) : Scopes :=
  let key := Text.fold name
  match scope with
  | .function => { s with active := { s.active with locals := s.active.locals.erase key } }
  | .module =>
    { s with modules := s.modules.erase key, definitions := s.definitions.erase key }
  | .global => s

def definedAt? (s : Scopes) (name : String) : Option Location :=
  s.definitions[Text.fold name]?

/-- Enters a call: no variables, and the same `m`. -/
def enter (s : Scopes) : Scopes :=
  { s with active := .fresh s.active.m }

def resume (s : Scopes) (active : Activation) : Scopes :=
  { s with active := active }

def list (s : Scopes) (scope : Scope) : List (String × Value) :=
  (s.bindings scope).toList

/-- The label a `goto` is looking for. -/
def pending (s : Scopes) : Option String :=
  s.active.pending

def setPending (s : Scopes) (label : Option String) : Scopes :=
  { s with active := { s.active with pending := label } }

end Scopes

end BrightScript
