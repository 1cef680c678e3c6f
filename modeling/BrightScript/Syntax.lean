import BrightScript.Kind
import BrightScript.Location

/-!
# Scripts as trees

A script is a list of statements. Every node knows where it stands in the text, because errors,
backtraces and the debugger speak of places. A `Procedure` is a function or a sub, with or without a
name of its own.
-/

namespace BrightScript

/-- A name in a script and where it stands. -/
structure Identifier where
  name : String
  location : Location
  deriving DecidableEq, Repr, Inhabited

def isDesignator (c : Char) : Bool :=
  c == '$' || c == '%' || c == '!' || c == '#' || c == '&'

namespace Identifier

/-- Words that are read as identifiers and cannot name variables or functions. -/
def reservedWords : List String :=
  ["box", "createobject", "eval", "getglobalaa", "getlastruncompileerror",
   "getlastrunruntimeerror", "line_num", "objfun", "pos", "run", "tab", "type"]

def isReserved (i : Identifier) : Bool :=
  reservedWords.contains (Text.fold i.name)

def designator? (i : Identifier) : Option Char :=
  i.name.toList.getLast?.filter isDesignator

end Identifier

inductive BinaryOp where
  | add | subtract | multiply | divide | intDivide | modulo | power
  | leftShift | rightShift
  | equal | notEqual | less | lessEqual | greater | greaterEqual
  | and | or
  deriving DecidableEq, Repr, Inhabited

namespace BinaryOp

def symbol : BinaryOp → String
  | add => "+"
  | subtract => "-"
  | multiply => "*"
  | divide => "/"
  | intDivide => "\\"
  | modulo => "mod"
  | power => "^"
  | leftShift => "<<"
  | rightShift => ">>"
  | equal => "="
  | notEqual => "<>"
  | less => "<"
  | lessEqual => "<="
  | greater => ">"
  | greaterEqual => ">="
  | and => "and"
  | or => "or"

def all : List BinaryOp :=
  [add, subtract, multiply, divide, intDivide, modulo, power, leftShift, rightShift, equal,
   notEqual, less, lessEqual, greater, greaterEqual, and, or]

end BinaryOp

inductive UnaryOp where
  | negate | plus | not
  deriving DecidableEq, Repr, Inhabited

def UnaryOp.symbol : UnaryOp → String
  | .negate => "-"
  | .plus => "+"
  | .not => "not"

inductive IncrementOp where
  | increment | decrement
  deriving DecidableEq, Repr, Inhabited

inductive Literal where
  | invalid
  | boolean (value : Bool)
  | string (value : String)
  | integer (value : Int32)
  | longInteger (value : Int64)
  | float (value : Float32)
  | double (value : Float)
  deriving Inhabited

mutual

inductive Expr where
  | binary (left : Expr) (op : BinaryOp) (right : Expr) (location : Location)
  | call (callee : Expr) (args : List Expr) (optional : Bool) (closing location : Location)
  | procedure (body : Procedure)
  | dottedGet (object : Expr) (name : Identifier) (optional : Bool) (location : Location)
  | attributeGet (object : Expr) (name : Identifier) (location : Location)
  | indexedGet (object : Expr) (indexes : List Expr) (optional : Bool)
      (closing location : Location)
  | grouping (inner : Expr) (location : Location)
  | literal (value : Literal) (location : Location)
  | arrayLiteral (elements : List Expr) (location : Location)
  | assocLiteral (members : List Member) (location : Location)
  | unary (op : UnaryOp) (operand : Expr) (location : Location)
  | reference (name : Identifier)

structure Member where
  name : String
  value : Expr

structure Parameter where
  name : Identifier
  kind : Kind
  default? : Option Expr

/-- A function or, with `isSub`, a sub. -/
structure Procedure where
  name : String
  parameters : List Parameter
  returns : Kind
  isSub : Bool
  body : Block
  location : Location

/-- Statements between the words that open and close them. -/
structure Block where
  statements : List Statement
  location : Location

structure Clause where
  condition : Expr
  block : Block

/-- What a `print` lists: values, jumps to the next column zone, and joins. -/
inductive PrintItem where
  | expression (value : Expr)
  | comma
  | semicolon

inductive Statement where
  | assignment (name : Identifier) (value : Expr) (location : Location)
  | dim (name : Identifier) (dimensions : List Expr) (location : Location)
  | block (body : Block)
  | expression (value : Expr)
  | exitFor (location : Location)
  | exitWhile (location : Location)
  | continueFor (location : Location)
  | continueWhile (location : Location)
  | declaration (name : Identifier) (body : Procedure)
  | conditional (condition : Expr) (thenBranch : Block) (elseIfs : List Clause)
      (elseBranch : Option Block) (location : Location)
  | increment (target : Expr) (op : IncrementOp) (location : Location)
  | print (items : List PrintItem) (location : Location)
  | goto (label : Identifier) (location : Location)
  | label (name : Identifier)
  | returning (value : Option Expr) (location : Location)
  | ending (location : Location)
  | stopping (location : Location)
  | forLoop (counter : Identifier) (start final : Expr) (step : Option Expr) (body : Block)
      (location : Location)
  | forEach (item : Identifier) (target : Expr) (body : Block) (location : Location)
  | whileLoop (condition : Expr) (body : Block) (location : Location)
  | dottedSet (object : Expr) (name : Identifier) (value : Expr) (location : Location)
  | indexedSet (object : Expr) (indexes : List Expr) (value : Expr) (closing location : Location)
  | library (path : String) (location : Location)
  | tryCatch (tryBlock : Block) (binding : Identifier) (catchBlock : Block) (location : Location)
  | throwing (value : Expr) (location : Location)

end

instance : Inhabited Expr := ⟨.literal .invalid .builtin⟩

instance : Inhabited Block := ⟨⟨[], .builtin⟩⟩

instance : Inhabited Statement := ⟨.block default⟩

instance : Inhabited Procedure := ⟨⟨"", [], .void, true, default, .builtin⟩⟩

def Expr.location : Expr → Location
  | binary _ _ _ location | call _ _ _ _ location | dottedGet _ _ _ location
  | attributeGet _ _ location | indexedGet _ _ _ _ location | grouping _ location
  | literal _ location | arrayLiteral _ location | assocLiteral _ location
  | unary _ _ location => location
  | procedure body => body.location
  | reference name => name.location

namespace Statement

def location : Statement → Location
  | assignment _ _ location | dim _ _ location | exitFor location | exitWhile location
  | continueFor location | continueWhile location | conditional _ _ _ _ location
  | increment _ _ location | print _ location | goto _ location | returning _ location
  | ending location | stopping location | forLoop _ _ _ _ _ location | forEach _ _ _ location
  | whileLoop _ _ location | dottedSet _ _ _ location | indexedSet _ _ _ _ location
  | library _ location | tryCatch _ _ _ location | throwing _ location => location
  | block body => body.location
  | expression value => value.location
  | declaration _ body => body.location
  | label name => name.location

/-- The short name of a statement at the debugger's prompt. -/
def describe : Statement → String
  | assignment .. => "assignment"
  | dim .. => "dim"
  | block _ => "block"
  | expression _ => "expression"
  | exitFor _ => "exit for"
  | exitWhile _ => "exit while"
  | continueFor _ => "continue for"
  | continueWhile _ => "continue while"
  | declaration .. => "function"
  | conditional .. => "if"
  | increment .. => "increment"
  | print .. => "print"
  | goto .. => "goto"
  | label _ => "label"
  | returning .. => "return"
  | ending _ => "end"
  | stopping _ => "stop"
  | forLoop .. => "for"
  | forEach .. => "for each"
  | whileLoop .. => "while"
  | dottedSet .. => "dotted set"
  | indexedSet .. => "indexed set"
  | library .. => "library"
  | tryCatch .. => "try"
  | throwing .. => "throw"

end Statement

end BrightScript
