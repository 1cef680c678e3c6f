import BrightScript.Syntax

/-!
# Signatures

What a function asks of its arguments and what it promises to return. A parameter with a default may
be left out; a variadic signature takes any number of further arguments.
-/

namespace BrightScript

/-- A parameter as callers see it. -/
structure Argument where
  name : String
  kind : Kind
  default? : Option Expr

namespace Argument

def required (name : String) (kind : Kind) : Argument :=
  ⟨name, kind, none⟩

def optional (name : String) (kind : Kind) (default : Literal) : Argument :=
  ⟨name, kind, some (.literal default .builtin)⟩

end Argument

structure Signature where
  arguments : List Argument
  returns : Kind
  variadic : Bool

namespace Signature

def of (arguments : List Argument) (returns : Kind) : Signature :=
  ⟨arguments, returns, false⟩

def requiredCount (s : Signature) : Nat :=
  (s.arguments.filter fun a => a.default?.isNone).length

end Signature

def Parameter.argument (p : Parameter) : Argument :=
  ⟨p.name.name, p.kind, p.default?⟩

def Procedure.signature (p : Procedure) : Signature :=
  .of (p.parameters.map Parameter.argument) p.returns

end BrightScript
