import BrightScript.Library.Collections
import BrightScript.Library.Strings

/-!
# What library functions do

Global functions and methods on the arguments they are called with. Arguments that were left out are
missing here: defaults of signatures are not filled in for library functions.
-/

namespace BrightScript

namespace Library

/-- The column up to which `Tab` writes blanks. -/
def maxTabColumn : Int := 65536

/-- A number as `Str` writes it, with a blank in the place of a missing sign. -/
def signedText (x : Float) : String :=
  let text := Decimal.NumberFormat.general.write x
  if 0 ≤ x || x.isNaN then " " ++ text else text

/-- An integer as `StrI` writes it: in base ten with a blank in the place of a missing sign, in
other bases from 2 to 36 without, and not at all in any other base. -/
def radixText (n : Int32) (radix : Int) : String :=
  if radix = 10 then (if 0 ≤ n then " " else "") ++ toString n.toInt
  else if 2 ≤ radix ∧ radix ≤ 36 then Text.writeInt radix.toNat n.toInt
  else ""

/-- The text without a leading `0x`. -/
def dropHexMark : List Char → List Char
  | '0' :: 'x' :: rest => rest
  | text => text

/-- An integer as `Val` reads it in a base. -/
def radixValue (text : String) (radix : Int) : Int32 :=
  if 2 ≤ radix ∧ radix ≤ 36 then
    let folded := (Text.fold (Text.trim text)).toList
    let figures := if radix = 16 then dropHexMark folded else folded
    ((Text.readInt64? radix.toNat figures).getD 0).toInt32
  else 0

def character (code : Int) : String :=
  if 0 ≤ code ∧ code.toNat.isValidChar then String.singleton (Char.ofNat code.toNat) else ""

def magnitude? : Value → Option Value
  | .integer n => some (.integer (if n < 0 then -n else n))
  | .longInteger n => some (.longInteger (if n < 0 then -n else n))
  | .float x => some (.float x.abs)
  | .double x => some (.double x.abs)
  | _ => none

def upTime (milliseconds : Int) : Float :=
  Float.round (Float.ofInt milliseconds / 1000 * 100) / 100

def unknownClass (name : String) (location : Location) : String :=
  s!"BRIGHTSCRIPT: ERROR: Runtime: unknown classname \"{name}\": {location.packageText}\n"

end Library

open Library

def Library.tab (target : Int) : Run Value := do
  let column ← Routine.view Session.column
  if target ≤ column then return .string ""
  else if maxTabColumn < target then Run.faultHere .outOfMemoryStringOp
  else return .string (Text.blanks (target.toNat - column))

def Builtin.invoke (b : Builtin) (args : List Value) : Run Value := do
  match b with
  | .str => return .string (signedText (numberAt args 0))
  | .strI => return .string (radixText (Int32.ofInt (integerAt args 0)) (integerAt args 1))
  | .int =>
    match args.head?.bind Value.toFloat? with
    | some x => return .integer x.floor.toInt32
    | none => Run.faultHere .typeMismatch
  | .fix =>
    match args.head?.bind Value.toFloat? with
    | some x => return .integer x.toInt32
    | none => Run.faultHere .typeMismatch
  | .abs =>
    match args.head?.bind (magnitude? ·.unbox) with
    | some v => return v
    | none => Run.faultHere .typeMismatch
  | .sqr => return .ofFloat (numberAt args 0).sqrt
  | .len => return int32 (textAt args 0).length
  | .uCase => return .string (Text.toCapitals (textAt args 0))
  | .lCase => return .string (Text.toSmall (textAt args 0))
  | .left => return .string (substring (textAt args 0) 0 (some (integerAt args 1)))
  | .right => return .string (ending (textAt args 0) (integerAt args 1))
  | .mid =>
    let count :=
      match args[2]? with
      | some v => v.toInt64?.map Int64.toInt
      | none => none
    return .string (substring (textAt args 0) (integerAt args 1 - 1) count)
  | .instr =>
    let start := max (integerAt args 0) 1
    let needle := textAt args 2
    if needle.isEmpty then return int32 start
    else return int32 (find (textAt args 1) needle (start - 1) + 1)
  | .chr => return .string (character (integerAt args 0))
  | .asc => return int32 (match (textAt args 0).toList with
    | c :: _ => c.toNat
    | [] => 0)
  | .val =>
    match args[1]? with
    | none | some .invalid => return .ofFloat (Text.leadingFloat (textAt args 0))
    | some radix =>
      return .integer (radixValue (textAt args 0) ((radix.toInt64?.getD 10).toInt))
  | .typeName => return .string (args.headD .uninitialized).typeName
  | .box => return (args.headD .invalid).box
  | .createObject =>
    let name := textAt args 0
    match create? name with
    | some make => make
    | none =>
      Run.write .stderr (unknownClass name (← Routine.view Session.location))
      return .invalid
  | .getGlobalAA => return .assoc (← Routine.view fun s => s.scopes.rootM)
  | .upTime => return .ofFloat (Library.upTime (← Run.readClock))
  | .tab => Library.tab (integerAt args 0)
  | .pos => return int32 (← Routine.view Session.column)

/-- The error of a method on an object of another component. -/
def Library.strayError (c : Component) (receiver : Value) (location : Location) : ScriptError :=
  .plain s!"{c.name} method called on {receiver.typeName}" location

def Library.wrongReceiver {α : Type} (c : Component) (receiver : Value) : Run α := do
  let location ← Routine.view Session.location
  Routine.leave (.error (strayError c receiver location))

def Method.invoke (m : Method) (receiver : Value) (args : List Value) : Run Value := do
  match m, receiver with
  | .array m, .array r => arrayMethod m r args
  | .array _, v => wrongReceiver .array v
  | .assoc m, .assoc r => assocMethod m r args
  | .assoc _, v => wrongReceiver .assocArray v
  | .string m, v => stringMethod m v args
  | .text _, v => return .string (← Routine.view fun s => contentText s.heap v)
  | .content _, v => return v.unbox

/-- The method of a value: of an object its own, of any other value that of its box. -/
def Value.method? (v : Value) (name : String) : Option Callable :=
  match v.box.component? with
  | some c => (c.method? name).map fun m => .ofMethod m v.box
  | none => none

end BrightScript
