import BrightScript.Syntax.Expression

/-!
# The grammar of statements

A statement is known by its first word, except for assignments, calls and labels, which start with a
name. An `if` has two forms: with a newline or a colon after its condition it is a block closed by
`end if`, otherwise its statements stand on the same line.
-/

namespace BrightScript.Grammar

open BrightScript.Parser

variable (g : Grammar)

def assignment? : TokenKind → Option (Option BinaryOp)
  | .mark .equal => some none
  | .mark .plusEqual => some (some .add)
  | .mark .minusEqual => some (some .subtract)
  | .mark .starEqual => some (some .multiply)
  | .mark .slashEqual => some (some .divide)
  | .mark .backslashEqual => some (some .intDivide)
  | .mark .shiftLeftEqual => some (some .leftShift)
  | .mark .shiftRightEqual => some (some .rightShift)
  | _ => none

def store? (target value : Expr) (location : Location) : Option Statement :=
  match target with
  | .reference name => some (.assignment name value location)
  | .dottedGet object name _ _ => some (.dottedSet object name value location)
  | .indexedGet object indexes _ closing _ =>
    some (.indexedSet object indexes value closing location)
  | _ => none

def isTarget : Expr → Bool
  | .reference _ | .dottedGet .. | .indexedGet .. => true
  | _ => false

/-- The assignment of what follows to a target. A compound one computes with the target first. -/
def assignmentTo (start : Location) (target : Expr) (op : Option BinaryOp) :
    Parser Statement := do
  let _ ← advance
  let right ← g.any
  let value :=
    match op with
    | some op => .binary target op right (target.location.union right.location)
    | none => right
  match store? target value (← locationFrom start) with
  | some statement => return statement
  | none => failAt start "Invalid assignment target"

def incrementOf (start : Location) (target : Expr) (op : IncrementOp) : Parser Statement := do
  let _ ← advance
  if isTarget target then return .increment target op (← locationFrom start)
  else failAt start "Invalid increment target"

def simpleStatement (budget : Nat) : Parser Statement := do
  let start ← here
  let target ← g.chain budget
  let kind ← peekKind
  match assignment? kind with
  | some op => g.assignmentTo start target op
  | none =>
    if kind.is .increment then incrementOf start target .increment
    else if kind.is .decrement then incrementOf start target .decrement
    else
      match target with
      | .call .. => return .expression target
      | _ => failAt start "Expected statement"

def declaration (budget : Nat) : Parser Statement := do
  let isSub := (← advance).kind.is .subWord
  let name ← expectIdentifier "Expected function name"
  return .declaration name (← g.procedureRest budget name.name isSub name.location)

def inlineStep (found : List Statement) : Parser (List Statement ⊕ List Statement) := do
  skip [.colon]
  if ← checkAny [.newline, .endOfText, .elseWord, .elseIf, .endIf] then return .inr found.reverse
  return .inl ((← g.statement) :: found)

/-- The statements of one line up to its end or an `else`. -/
def inlineBlock (budget : Nat) : Parser Block :=
  spanned (Routine.iterate g.inlineStep budget [])

/-- One more alternative of an `if`, given how their bodies are read. A later `else` replaces an
earlier one. -/
def alternativeStep (body lastBody : Parser Block) (found : List Clause × Option Block) :
    Parser (List Clause × Option Block ⊕ List Clause × Option Block) := do
  if ← accept .elseIf then
    let condition ← g.any
    let _ ← accept .thenWord
    let block ← body
    return .inl (⟨condition, block⟩ :: found.1, found.2)
  else if ← accept .elseWord then
    return .inl (found.1, some (← lastBody))
  else return .inr (found.1.reverse, found.2)

def alternatives (budget : Nat) (body lastBody : Parser Block) :
    Parser (List Clause × Option Block) :=
  Routine.iterate (g.alternativeStep body lastBody) budget ([], none)

/-- An `if` up to its condition and the `then` behind it. -/
def ifHead : Parser (Location × Expr) := do
  let start := (← advance).location
  let condition ← g.any
  let _ ← accept .thenWord
  return (start, condition)

/-- The marks before which a branch of a block-form `if` ends. -/
def branchEnds : List Mark :=
  [.elseIf, .elseWord, .endIf]

def blockForm (budget : Nat) (head : Location × Expr) : Parser Statement := do
  let thenBranch ← g.block budget branchEnds
  let (elseIfs, elseBranch) ←
    g.alternatives budget (g.block budget branchEnds) (g.block budget [.endIf])
  let _ ← expect .endIf
  return .conditional head.2 thenBranch elseIfs elseBranch (← locationFrom head.1)

def inlineForm (budget : Nat) (head : Location × Expr) : Parser Statement := do
  let thenBranch ← g.inlineBlock budget
  let (elseIfs, elseBranch) ←
    g.alternatives budget (g.inlineBlock budget) (g.inlineBlock budget)
  let _ ← accept .endIf
  return .conditional head.2 thenBranch elseIfs elseBranch (← locationFrom head.1)

def conditional (budget : Nat) : Parser Statement := do
  let head ← g.ifHead
  if ← checkAny [.newline, .colon] then g.blockForm budget head else g.inlineForm budget head

/-- The end of a counting loop: `end for`, or `next` with a name that is not looked at. -/
def loopEnd : Parser Unit := do
  if ← accept .endFor then return
  let _ ← expect .nextWord
  match ← peekKind with
  | .identifier _ =>
    let _ ← advance
    return
  | _ => return

def forLoop (budget : Nat) : Parser Statement := do
  let start := (← advance).location
  let counter ← expectIdentifier "Expected loop counter"
  let _ ← expect .equal
  let first ← g.any
  let _ ← expect .toWord
  let final ← g.any
  let step ← if ← accept .stepWord then some <$> g.any else pure none
  let body ← g.block budget [.nextWord, .endFor]
  loopEnd
  return .forLoop counter first final step body (← locationFrom start)

def forEach (budget : Nat) : Parser Statement := do
  let start := (← advance).location
  let item ← expectIdentifier "Expected loop variable"
  let _ ← expect .inWord
  let target ← g.any
  let body ← g.block budget [.nextWord, .endFor]
  loopEnd
  return .forEach item target body (← locationFrom start)

def whileLoop (budget : Nat) : Parser Statement := do
  let start := (← advance).location
  let condition ← g.any
  let body ← g.block budget [.endWhile]
  let _ ← expect .endWhile
  return .whileLoop condition body (← locationFrom start)

def tryCatch (budget : Nat) : Parser Statement := do
  let start := (← advance).location
  let tryBlock ← g.block budget [.catchWord]
  let _ ← expect .catchWord
  let binding ← expectIdentifier "Expected exception variable after catch"
  let catchBlock ← g.block budget [.endTry]
  let _ ← expect .endTry
  return .tryCatch tryBlock binding catchBlock (← locationFrom start)

def printStep (found : List PrintItem) : Parser (List PrintItem ⊕ List PrintItem) := do
  if ← atStatementEnd then return .inr found.reverse
  else if ← accept .comma then return .inl (.comma :: found)
  else if ← accept .semicolon then return .inl (.semicolon :: found)
  else return .inl (.expression (← g.any) :: found)

def print (budget : Nat) : Parser Statement := do
  let start := (← advance).location
  let items ← Routine.iterate g.printStep budget []
  return .print items (← locationFrom start)

def dim (budget : Nat) : Parser Statement := do
  let start := (← advance).location
  let name ← expectIdentifier "Expected array name after dim"
  let _ ← expect .leftBracket
  let (dimensions, _) ← g.expressionList budget .rightBracket
  return .dim name dimensions (← locationFrom start)

def returning : Parser Statement := do
  let start := (← advance).location
  let value ← if ← atStatementEnd then pure none else some <$> g.any
  return .returning value (← locationFrom start)

def goto : Parser Statement := do
  let start := (← advance).location
  let label ← expectIdentifier "Expected label after goto"
  return .goto label (← locationFrom start)

def throwing : Parser Statement := do
  let start := (← advance).location
  let value ← g.any
  return .throwing value (← locationFrom start)

def library : Parser Statement := do
  let start := (← advance).location
  let path ← expectString "Expected library path string"
  return .library path (← locationFrom start)

/-- A label: a name and a colon with nothing behind it on the line. -/
def label : Parser Statement := do
  let name ← expectIdentifier "Expected label"
  let _ ← advance
  return .label name

def nameFollows (c : Cursor) : Bool :=
  match c.ahead 1 with
  | .identifier _ => true
  | _ => false

/-- Whether the next tokens are those of a label, given that the first is an identifier. -/
def labelFollows (c : Cursor) : Bool :=
  (c.ahead 1).is .colon && (c.ahead 2).isOneOf [.newline, .endOfText]

def bare (make : Location → Statement) : Parser Statement := do
  return make (← advance).location

def statementRule (budget : Nat) : Parser Statement := do
  match ← peekKind with
  | .mark .functionWord =>
    if ← Routine.view nameFollows then g.declaration budget else g.simpleStatement budget
  | .mark .subWord =>
    if ← Routine.view nameFollows then g.declaration budget else g.simpleStatement budget
  | .mark .ifWord => g.conditional budget
  | .mark .forWord => g.forLoop budget
  | .mark .forEach => g.forEach budget
  | .mark .whileWord => g.whileLoop budget
  | .mark .tryWord => g.tryCatch budget
  | .mark .printWord => g.print budget
  | .mark .question => g.print budget
  | .mark .returnWord => g.returning
  | .mark .exitFor => bare .exitFor
  | .mark .exitWhile => bare .exitWhile
  | .mark .continueFor => bare .continueFor
  | .mark .continueWhile => bare .continueWhile
  | .mark .endWord => bare .ending
  | .mark .stopWord => bare .stopping
  | .mark .gotoWord => goto
  | .mark .dimWord => g.dim budget
  | .mark .throwWord => g.throwing
  | .mark .libraryWord => library
  | .identifier _ =>
    if ← Routine.view labelFollows then label else g.simpleStatement budget
  | _ => g.simpleStatement budget

end BrightScript.Grammar
