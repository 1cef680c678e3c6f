import BrightScript.Builtin
import BrightScript.Component
import BrightScript.Decimal.Reading

/-!
# Values

A value is a constant, a function, or an object. Arrays and associative arrays live in the heap, and
a value holds only a reference to them; a box holds its content itself. A function value remembers
the associative array it was read from, and a method the object it was found on.

Two function values are the same function when they have the same `Identity`: one for every global
function, declaration and method, and a new one whenever a function expression is evaluated.
-/

namespace BrightScript

structure ArrayRef where
  index : Nat
  deriving DecidableEq, Repr, Inhabited

structure AssocRef where
  index : Nat
  deriving DecidableEq, Repr, Inhabited

/-- What makes two function values the same function. -/
inductive Identity where
  | builtin (b : Builtin)
  | declared (key : String)
  | method (m : Method)
  | fresh (number : Nat)
  deriving DecidableEq, Repr, Inhabited

mutual

inductive Value where
  | invalid
  | uninitialized
  | boolean (value : Bool)
  | string (value : String)
  | integer (value : Int32)
  | longInteger (value : Int64)
  | float (value : Float32)
  | double (value : Float)
  | function (value : Callable)
  | array (ref : ArrayRef)
  | assoc (ref : AssocRef)
  | boxed (content : Value)

structure Callable where
  identity : Identity
  target : Target
  context : Option AssocRef

inductive Target where
  | procedure (body : Procedure)
  | builtin (b : Builtin)
  | method (m : Method) (receiver : Value)

end

instance : Inhabited Value := ⟨.invalid⟩

namespace Target

def name : Target → String
  | procedure body => body.name
  | builtin b => b.name
  | method m _ => m.name

/-- The signatures of a function, in the order they are tried. -/
def overloads : Target → List Signature
  | procedure body => [body.signature]
  | builtin b => [b.signature]
  | method m _ => m.overloads

def isProcedure : Target → Bool
  | procedure _ => true
  | _ => false

def location? : Target → Option Location
  | procedure body => some body.location
  | _ => none

def receiver? : Target → Option Value
  | method _ receiver => some receiver
  | _ => none

end Target

namespace Callable

def name (c : Callable) : String :=
  c.target.name

def overloads (c : Callable) : List Signature :=
  c.target.overloads

def same (c d : Callable) : Bool :=
  c.identity == d.identity

def ofBuiltin (b : Builtin) : Callable :=
  ⟨.builtin b, .builtin b, none⟩

/-- A declared function goes by the name of its declaration. -/
def ofDeclaration (name : String) (body : Procedure) : Callable :=
  ⟨.declared (Text.fold name), .procedure { body with name := name }, none⟩

def ofMethod (m : Method) (receiver : Value) : Callable :=
  ⟨.method m, .method m receiver, none⟩

/-- The function as a member of an associative array. -/
def withContext (c : Callable) (context : AssocRef) : Callable :=
  { c with context := some context }

end Callable

def Component.ofContent : Value → Component
  | .boolean _ => .wrapper .boolean
  | .string _ => .string
  | .integer _ => .wrapper .int
  | .longInteger _ => .wrapper .longInteger
  | .float _ => .wrapper .float
  | .double _ => .wrapper .double
  | .function _ => .wrapper .function
  | _ => .wrapper .invalid

namespace Value

/-- The value of a constant. Single-precision constants are rounded like computed values. -/
def ofLiteral : Literal → Value
  | .invalid => invalid
  | .boolean b => boolean b
  | .string s => string s
  | .integer n => integer n
  | .longInteger n => longInteger n
  | .float x => float (Decimal.roundSingle x.toFloat)
  | .double x => double x

def ofFloat (x : Float) : Value :=
  float (Decimal.roundSingle x)

def kind : Value → Kind
  | invalid => .invalid
  | uninitialized => .uninitialized
  | boolean _ => .boolean
  | string _ => .string
  | integer _ => .integer
  | longInteger _ => .longInteger
  | float _ => .float
  | double _ => .double
  | function _ => .function
  | array _ | assoc _ | boxed _ => .object

def component? : Value → Option Component
  | array _ => some .array
  | assoc _ => some .assocArray
  | boxed content => some (.ofContent content)
  | _ => none

def isInvalid : Value → Bool
  | invalid => true
  | _ => false

def isObject : Value → Bool
  | array _ | assoc _ | boxed _ => true
  | _ => false

def isNumber (v : Value) : Bool :=
  v.kind.isNumeric

def isString : Value → Bool
  | string _ => true
  | _ => false

def isBoolean : Value → Bool
  | boolean _ => true
  | _ => false

def content? : Value → Option Value
  | boxed content => some content
  | _ => none

def unbox : Value → Value
  | boxed content => content
  | v => v

def isBoxable (v : Value) : Bool :=
  match v with
  | uninitialized => false
  | v => !v.isObject

def box (v : Value) : Value :=
  if v.isBoxable then boxed v else v

def isUnboxable (v : Value) : Bool :=
  v.content?.isSome

def isCollection : Value → Bool
  | array _ | assoc _ => true
  | _ => false

def isNumberComparable (v : Value) : Bool :=
  v.isNumber || v.content?.any isNumber

def isStringComparable (v : Value) : Bool :=
  v.isString || v.content?.any isString

def isBooleanComparable (v : Value) : Bool :=
  v.isBoolean || v.content?.any isBoolean

/-- Whether the value is equal to something by a rule of its own. -/
def isComparable : Value → Bool
  | uninitialized => true
  | _ => false

def typeName (v : Value) : String :=
  match v.component? with
  | some c => c.name
  | none => v.kind.name

/-- Whether two objects are one. Collections are compared by reference. A box has no reference, so
two boxes are one only if the second is a `copy` of the first. -/
def sameObject? (copy : Bool) : Value → Value → Option Bool
  | array a, array b => some (a == b)
  | assoc a, assoc b => some (a == b)
  | boxed _, boxed _ => some copy
  | a, b => if a.isObject && b.isObject then some false else none

@[simp] theorem unbox_boxed (v : Value) : (boxed v).unbox = v := rfl

theorem kind_eq_object_iff (v : Value) : v.kind = .object ↔ v.isObject = true := by
  cases v <;> simp [kind, isObject]

theorem isBoxable_iff (v : Value) :
    v.isBoxable = true ↔ v.isObject = false ∧ v ≠ .uninitialized := by
  cases v <;> simp [isBoxable, isObject]

end Value

end BrightScript
