import BrightScript.Evaluate.Evaluator
import BrightScript.Text.Search

/-!
# Printing

A `print` writes its items as one text. A comma moves to the next column zone, and the line ends
unless the last item is a semicolon. The helpers `Tab` and `Pos` are bound while the items are
worked out. When an item fails nothing is written, and the cursor stands where it stood.
-/

namespace BrightScript

namespace Run

def zone : Nat := 16

/-- The text of a printed value; numbers without a sign have a blank in its place. -/
def printed (h : Heap) (v : Value) : String :=
  if v.isNumberComparable && v.isNonNegative then " " ++ h.text v else h.text v

def bindHelper (b : Builtin) : Run Unit := do
  let identity ← freshIdentity
  modifyScopes (·.bind b.name (.function ⟨identity, .builtin b, none⟩))

def withoutHelpers (s : Session) : Session :=
  let scopes := s.scopes.remove Builtin.tab.name .function
  { s with scopes := scopes.remove Builtin.pos.name .function }

/-- What a `print` does once its helpers are bound, given the run that works out the line. -/
def printing (x : Run String) : Run Unit :=
  fun s =>
    match x s with
    | .done line t => .done () ((withoutHelpers t).write .stdout line)
    | .exit signal t => .exit signal { withoutHelpers t with column := s.column }
    | .exhausted => .exhausted

/-- Whether the line goes on after a `print`. -/
def staysOnLine (items : List PrintItem) : Bool :=
  match items.getLast? with
  | some .semicolon => true
  | _ => false

end Run

namespace Evaluator

variable (ev : Evaluator)

def printItem : PrintItem → Run String
  | .comma => do
    let column ← Routine.view Session.column
    return Text.blanks (Run.zone - column % Run.zone)
  | .semicolon => pure ""
  | .expression e => do
    let v ← ev.evaluate e
    Routine.view fun s => Run.printed s.heap v

def printItems (line : String) : List PrintItem → Run String
  | [] => pure line
  | item :: rest => do
    let piece ← ev.printItem item
    Routine.modify (·.advance piece)
    printItems (line ++ piece) rest

def printLine (items : List PrintItem) : Run String := do
  let line ← ev.printItems "" items
  if Run.staysOnLine items then return line
  else
    Routine.modify (·.advance "\n")
    return line ++ "\n"

def print (items : List PrintItem) : Run Unit := do
  Run.bindHelper .tab
  Run.bindHelper .pos
  Run.printing (ev.printLine items)

end Evaluator

end BrightScript
