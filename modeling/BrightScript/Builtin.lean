import BrightScript.Signature

/-!
# Global functions

The functions every script can call, and the two helpers `Tab` and `Pos` that exist only while a
`print` statement runs.
-/

namespace BrightScript

inductive Builtin where
  | str | strI | int | fix | abs | sqr | len | uCase | lCase | left | right | mid | instr
  | chr | asc | val | typeName | box | createObject | getGlobalAA | upTime
  | tab | pos
  deriving DecidableEq, Repr, Inhabited

namespace Builtin

def globals : List Builtin :=
  [str, strI, int, fix, abs, sqr, len, uCase, lCase, left, right, mid, instr, chr, asc, val,
   typeName, box, createObject, getGlobalAA, upTime]

def name : Builtin → String
  | str => "Str"
  | strI => "StrI"
  | int => "Int"
  | fix => "Fix"
  | abs => "Abs"
  | sqr => "Sqr"
  | len => "Len"
  | uCase => "UCase"
  | lCase => "LCase"
  | left => "Left"
  | right => "Right"
  | mid => "Mid"
  | instr => "Instr"
  | chr => "Chr"
  | asc => "Asc"
  | val => "Val"
  | typeName => "Type"
  | box => "Box"
  | createObject => "CreateObject"
  | getGlobalAA => "GetGlobalAA"
  | upTime => "UpTime"
  | tab => "Tab"
  | pos => "Pos"

def signature : Builtin → Signature
  | str => .of [.required "value" .float] .string
  | strI => .of [.required "value" .integer, .optional "radix" .integer (.integer 10)] .string
  | int => .of [.required "x" .dynamic] .integer
  | fix => .of [.required "x" .dynamic] .integer
  | abs => .of [.required "x" .dynamic] .dynamic
  | sqr => .of [.required "x" .float] .float
  | len => .of [.required "s" .string] .integer
  | uCase => .of [.required "s" .string] .string
  | lCase => .of [.required "s" .string] .string
  | left => .of [.required "s" .string, .required "n" .integer] .string
  | right => .of [.required "s" .string, .required "n" .integer] .string
  | mid =>
    .of [.required "s" .string, .required "p" .integer, .optional "n" .integer .invalid] .string
  | instr =>
    .of [.required "start" .integer, .required "text" .string, .required "substring" .string]
      .integer
  | chr => .of [.required "ch" .integer] .string
  | asc => .of [.required "letter" .string] .integer
  | val => .of [.required "s" .string, .optional "radix" .integer .invalid] .dynamic
  | typeName =>
    .of [.required "variable" .dynamic, .optional "version" .integer (.integer 2)] .string
  | box => .of [.required "x" .dynamic] .object
  | createObject => ⟨[.required "objType" .string], .dynamic, true⟩
  | getGlobalAA => .of [] .dynamic
  | upTime => .of [.required "dummy" .integer] .float
  | tab => .of [.required "position" .integer] .string
  | pos => .of [.required "dummy" .dynamic] .integer

/-- The global function of a name, in any case of letters. -/
def ofName? (name : String) : Option Builtin :=
  globals.find? fun b => Text.sameWord b.name name

end Builtin

end BrightScript
