import BrightScript.Signature

/-!
# Components and their methods

Arrays, associative arrays and boxed values are components: objects with a name and methods. A box
around a string has the string methods; every other box is a `Wrapper` with two methods, one for the
text and one for the content. A method is found by its name in any case of letters.
-/

namespace BrightScript

/-- Boxes around values other than strings. -/
inductive Wrapper where
  | int | longInteger | float | double | boolean | function | invalid
  deriving DecidableEq, Repr, Inhabited

inductive Component where
  | array
  | assocArray
  | string
  | wrapper (w : Wrapper)
  deriving DecidableEq, Repr, Inhabited

namespace Wrapper

def all : List Wrapper :=
  [int, longInteger, float, double, boolean, function, invalid]

def name : Wrapper → String
  | int => "roInt"
  | longInteger => "roLongInteger"
  | float => "roFloat"
  | double => "roDouble"
  | boolean => "roBoolean"
  | function => "roFunction"
  | invalid => "roInvalid"

def getter : Wrapper → String
  | int => "getInt"
  | longInteger => "getLongInt"
  | float => "getFloat"
  | double => "getDouble"
  | boolean => "getBoolean"
  | function => "getSub"
  | invalid => "getInvalid"

def content : Wrapper → Kind
  | int => .integer
  | longInteger => .longInteger
  | float => .float
  | double => .double
  | boolean => .boolean
  | function => .function
  | invalid => .invalid

end Wrapper

namespace Component

def all : List Component :=
  [array, assocArray, string] ++ Wrapper.all.map wrapper

def name : Component → String
  | array => "roArray"
  | assocArray => "roAssociativeArray"
  | string => "roString"
  | wrapper w => w.name

def ofName? (name : String) : Option Component :=
  all.find? fun c => Text.sameWord c.name name

end Component

inductive ArrayMethod where
  | count | push | pop | shift | unshift | peek | clear | append | join | isEmpty
  | getEntry | setEntry | reverse
  deriving DecidableEq, Repr, Inhabited

inductive AssocMethod where
  | count | addReplace | lookup | doesExist | delete | clear | keys | items | isEmpty | append
  deriving DecidableEq, Repr, Inhabited

inductive StringMethod where
  | len | left | right | mid | instr | trim | toInt | toFloat | toStr | getString
  | ucase | lcase | split
  deriving DecidableEq, Repr, Inhabited

inductive Method where
  | array (m : ArrayMethod)
  | assoc (m : AssocMethod)
  | string (m : StringMethod)
  | text (w : Wrapper)
  | content (w : Wrapper)
  deriving DecidableEq, Repr, Inhabited

namespace ArrayMethod

def all : List ArrayMethod :=
  [count, push, pop, shift, unshift, peek, clear, append, join, isEmpty, getEntry, setEntry,
   reverse]

def name : ArrayMethod → String
  | count => "count"
  | push => "push"
  | pop => "pop"
  | shift => "shift"
  | unshift => "unshift"
  | peek => "peek"
  | clear => "clear"
  | append => "append"
  | join => "join"
  | isEmpty => "isEmpty"
  | getEntry => "getEntry"
  | setEntry => "setEntry"
  | reverse => "reverse"

def signature : ArrayMethod → Signature
  | count => .of [] .integer
  | push => .of [.required "tvalue" .dynamic] .void
  | pop => .of [] .dynamic
  | shift => .of [] .dynamic
  | unshift => .of [.required "tvalue" .dynamic] .void
  | peek => .of [] .dynamic
  | clear => .of [] .void
  | append => .of [.required "array" .object] .void
  | join => .of [.required "separator" .string] .string
  | isEmpty => .of [] .boolean
  | getEntry => .of [.required "index" .dynamic] .dynamic
  | setEntry => .of [.required "index" .dynamic, .required "tvalue" .dynamic] .void
  | reverse => .of [] .void

end ArrayMethod

namespace AssocMethod

def all : List AssocMethod :=
  [count, addReplace, lookup, doesExist, delete, clear, keys, items, isEmpty, append]

def name : AssocMethod → String
  | count => "count"
  | addReplace => "addReplace"
  | lookup => "lookup"
  | doesExist => "doesExist"
  | delete => "delete"
  | clear => "clear"
  | keys => "keys"
  | items => "items"
  | isEmpty => "isEmpty"
  | append => "append"

def signature : AssocMethod → Signature
  | count => .of [] .integer
  | addReplace => .of [.required "key" .string, .required "value" .dynamic] .void
  | lookup => .of [.required "key" .string] .dynamic
  | doesExist => .of [.required "key" .string] .boolean
  | delete => .of [.required "key" .string] .boolean
  | clear => .of [] .void
  | keys => .of [] .object
  | items => .of [] .object
  | isEmpty => .of [] .boolean
  | append => .of [.required "aa" .object] .void

end AssocMethod

namespace StringMethod

def all : List StringMethod :=
  [len, left, right, mid, instr, trim, toInt, toFloat, toStr, getString, ucase, lcase, split]

def name : StringMethod → String
  | len => "len"
  | left => "left"
  | right => "right"
  | mid => "mid"
  | instr => "instr"
  | trim => "trim"
  | toInt => "toInt"
  | toFloat => "toFloat"
  | toStr => "toStr"
  | getString => "getString"
  | ucase => "ucase"
  | lcase => "lcase"
  | split => "split"

def overloads : StringMethod → List Signature
  | len => [.of [] .integer]
  | left => [.of [.required "len" .integer] .string]
  | right => [.of [.required "len" .integer] .string]
  | mid =>
    [.of [.required "start_index" .integer] .string,
     .of [.required "start_index" .integer, .required "num_chars" .integer] .string]
  | instr =>
    [.of [.required "substring" .string] .integer,
     .of [.required "start_index" .integer, .required "substring" .string] .integer]
  | trim => [.of [] .string]
  | toInt => [.of [] .integer]
  | toFloat => [.of [] .float]
  | toStr => [.of [] .string]
  | getString => [.of [] .string]
  | ucase => [.of [] .string]
  | lcase => [.of [] .string]
  | split => [.of [.optional "separator" .string (.string "")] .object]

end StringMethod

namespace Method

def component : Method → Component
  | array _ => .array
  | assoc _ => .assocArray
  | string _ => .string
  | text w => .wrapper w
  | content w => .wrapper w

def name : Method → String
  | array m => m.name
  | assoc m => m.name
  | string m => m.name
  | text _ => "toStr"
  | content w => w.getter

def overloads : Method → List Signature
  | array m => [m.signature]
  | assoc m => [m.signature]
  | string m => m.overloads
  | text _ => [.of [] .string]
  | content w => [.of [] w.content]

end Method

namespace Component

def methods : Component → List Method
  | array => ArrayMethod.all.map .array
  | assocArray => AssocMethod.all.map .assoc
  | string => StringMethod.all.map .string
  | wrapper w => [.text w, .content w]

def method? (c : Component) (name : String) : Option Method :=
  c.methods.find? fun m => Text.sameWord m.name name

theorem component_of_method? {c : Component} {name : String} {m : Method}
    (h : c.method? name = some m) : m.component = c := by
  have member : m ∈ c.methods := List.mem_of_find?_eq_some h
  cases c <;> simp only [methods, List.mem_map, List.mem_cons, List.not_mem_nil, or_false] at member
  case wrapper w => rcases member with rfl | rfl <;> rfl
  all_goals
    obtain ⟨_, _, rfl⟩ := member
    rfl

end Component

end BrightScript
