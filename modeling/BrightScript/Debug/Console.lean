import BrightScript.ScriptError
import BrightScript.Text.Blank
import BrightScript.Text.Search

/-!
# The debugger's console

When a run pauses, the console says where and why, and then reads commands from lines of input until
one of them lets the run go on or ends it. Without input the run goes on.
-/

namespace BrightScript

inductive Action where
  | proceed
  /-- Go on and pause before the next statement. -/
  | step
  | exit
  deriving DecidableEq, Repr, Inhabited

structure BreakContext where
  location : Location
  statement : String
  backtrace : String
  locals : List (String × Value)
  error : Option ScriptError

namespace Console

def help : String :=
  "Commands:\r\n" ++
  "   bt      Print backtrace of call function context frames\r\n" ++
  "   cont|c  Continue script execution\r\n" ++
  "   exit|q  Exit shell\r\n" ++
  "   help    Print this list\r\n" ++
  "   step|s  Step one program statement\r\n" ++
  "   var     Display local variables and their types/values\r\n"

/-- The description of a variable's value. The number of references to a collection is not counted
and shown as a dash on the line. -/
def describe (h : Heap) : Value → String
  | .string s => s!"String (VT_STR_CONST) val:\"{s}\""
  | .array r => s!"roArray refcnt=_ count:{(h.array r).size}"
  | .assoc r => s!"roAssociativeArray refcnt=_ count:{(h.assoc r).size}"
  | .function c => s!"Function val:{c.name}"
  | v => s!"{v.typeName} val:{h.text v}"

def listing (h : Heap) (bindings : List (String × Value)) : String :=
  let lines := bindings.map fun (name, v) => Text.padRight 17 name ++ describe h v ++ "\r\n"
  Text.padRight 16 "global" ++ " Interface:ifGlobal\r\n" ++ String.join lines

/-- A number in hexadecimal digits, at least two of them. -/
def hex (n : Int32) : String :=
  let digits := Nat.toDigits 16 n.toUInt32.toNat
  String.ofList (List.replicate (2 - digits.length) '0' ++ digits)

def header (c : BreakContext) : String :=
  match c.error with
  | some e => s!"{e.message} (runtime error &h{hex e.number}) in {c.location.text}\r\n"
  | none =>
    s!"BrightScript Micro Debugger.\r\nStopped at {c.location.text} ({c.statement})\r\n"

def prompt : String :=
  "\r\nBrightScript Debugger> "

/-- The answer to a line: a decision, or a text. -/
def answer (h : Heap) (c : BreakContext) (line : String) : Action ⊕ String :=
  let word := Text.fold (Text.trim line)
  if word = "" then .inr ""
  else if word = "c" || word = "cont" then .inl .proceed
  else if word = "s" || word = "t" || word = "step" then .inl .step
  else if word = "q" || word = "exit" then .inl .exit
  else if word = "bt" then .inr c.backtrace
  else if word = "var" then .inr (listing h c.locals)
  else if word = "help" then .inr help
  else .inr s!"Unknown command '{word}'. Type help.\r\n"

/-- Reads lines until one brings a decision. Gives the decision, what was written, and the lines not
read. -/
def converse (h : Heap) (c : BreakContext) : List String → Action × String × List String
  | [] => (.proceed, prompt, [])
  | line :: rest =>
    match answer h c line with
    | .inl action => (action, prompt, rest)
    | .inr text =>
      let (action, more, unread) := converse h c rest
      (action, prompt ++ text ++ more, unread)

def pause (h : Heap) (c : BreakContext) (input : List String) : Action × String × List String :=
  let (action, text, unread) := converse h c input
  (action, header c ++ text, unread)

/-- The lines of a text; nothing follows the last newline. -/
def linesOf (text : String) : List String :=
  let pieces := Text.splitOn text "\n"
  match pieces.getLast? with
  | some "" => pieces.dropLast
  | _ => pieces

end Console

end BrightScript
