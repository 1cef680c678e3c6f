import BrightScript.Text.Fold

/-!
# Kinds of values

The kinds a parameter, a result or a variable can be declared with, and those that values report.
Their order matters to one rule only: values of a kind before `dynamic` can be compared for
equality.
-/

namespace BrightScript

/-- The kind of a value, or a demand on one. -/
inductive Kind where
  | interface
  | invalid
  | boolean
  | string
  | integer
  | longInteger
  | float
  | double
  | function
  | uninitialized
  | dynamic
  | void
  | object
  deriving DecidableEq, Repr, Inhabited

namespace Kind

def rank : Kind → Nat
  | interface => 0
  | invalid => 1
  | boolean => 2
  | string => 3
  | integer => 4
  | longInteger => 5
  | float => 6
  | double => 7
  | function => 8
  | uninitialized => 9
  | dynamic => 10
  | void => 11
  | object => 12

def name : Kind → String
  | interface => "Interface"
  | invalid => "Invalid"
  | boolean => "Boolean"
  | string => "String"
  | integer => "Integer"
  | longInteger => "LongInteger"
  | float => "Float"
  | double => "Double"
  | function => "Function"
  | uninitialized => "<uninitialized>"
  | dynamic => "Dynamic"
  | void => "Void"
  | object => "Object"

def nameable : List Kind :=
  [interface, invalid, boolean, string, integer, longInteger, float, double, function, dynamic,
   void, object]

def ofName? (name : String) : Option Kind :=
  nameable.find? fun k => Text.sameWord k.name name

def ofDesignator : Char → Kind
  | '$' => string
  | '%' => integer
  | '!' => float
  | '#' => double
  | '&' => longInteger
  | _ => dynamic

def isNumeric : Kind → Bool
  | integer | longInteger | float | double => true
  | _ => false

end Kind

end BrightScript
