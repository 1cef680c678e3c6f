import BrightScript.Routine
import BrightScript.Syntax
import BrightScript.Syntax.Error
import BrightScript.Token

/-!
# Reading tokens

A cursor walks over the tokens of a script. What has been passed is gone from `rest`, so the number
of tokens left measures the progress of a parser. When all tokens are passed the last one, the end
of the text, is still seen. Errors that do not stop the parser are kept in the cursor.
-/

namespace BrightScript

structure Cursor where
  rest : List Token
  previous : Option Token
  /-- The token seen when none is left. -/
  final : Token
  /-- The errors reported so far, the latest first. -/
  errors : List SyntaxError
  /-- The number of functions without a name met so far. -/
  unnamed : Nat

/-- A parser leaves early with the error that makes it fail. -/
abbrev Parser (α : Type) : Type :=
  Routine SyntaxError Cursor α

namespace Cursor

def ofTokens (tokens : List Token) : Cursor :=
  ⟨tokens, none, tokens.getLastD ⟨.mark .endOfText, .builtin⟩, [], 0⟩

def peek (c : Cursor) : Token :=
  c.rest.headD c.final

/-- What the token `n` places further on is; the end of the text if there is none. -/
def ahead (c : Cursor) (n : Nat) : TokenKind :=
  match c.rest[n]? with
  | some t => t.kind
  | none => .mark .endOfText

def advance (c : Cursor) : Cursor :=
  match c.rest with
  | t :: rest => { c with rest := rest, previous := some t }
  | [] => c

/-- Passes over tokens at the front that satisfy a condition. -/
def skipTokens (p : TokenKind → Bool) : List Token → Option Token → List Token × Option Token
  | t :: rest, previous =>
    if p t.kind then skipTokens p rest (some t) else (t :: rest, previous)
  | [], previous => ([], previous)

def skip (marks : List Mark) (c : Cursor) : Cursor :=
  let (rest, previous) := skipTokens (·.isOneOf marks) c.rest c.previous
  { c with rest := rest, previous := previous }

def skipLine (c : Cursor) : Cursor :=
  let onLine := fun (k : TokenKind) => !k.isOneOf [.newline, .endOfText]
  let (rest, previous) := skipTokens onLine c.rest c.previous
  let atEnd := { c with rest := rest, previous := previous }
  if atEnd.peek.kind.is .newline then atEnd.advance else atEnd

def locationFrom (c : Cursor) (start : Location) : Location :=
  match c.previous with
  | some t => start.upTo t.location
  | none => start

def report (e : SyntaxError) (c : Cursor) : Cursor :=
  { c with errors := e :: c.errors }

end Cursor

namespace Parser

def peek : Parser Token :=
  Routine.view Cursor.peek

def peekKind : Parser TokenKind :=
  Routine.view fun c => c.peek.kind

def here : Parser Location :=
  Routine.view fun c => c.peek.location

def advance : Parser Token :=
  Routine.change fun c => (c.peek, c.advance)

def check (m : Mark) : Parser Bool :=
  Routine.view fun c => c.peek.kind.is m

def checkAny (marks : List Mark) : Parser Bool :=
  Routine.view fun c => c.peek.kind.isOneOf marks

def accept (m : Mark) : Parser Bool :=
  Routine.change fun c => if c.peek.kind.is m then (true, c.advance) else (false, c)

def skip (marks : List Mark) : Parser Unit :=
  Routine.modify (Cursor.skip marks)

def skipLine : Parser Unit :=
  Routine.modify Cursor.skipLine

def report (e : SyntaxError) : Parser Unit :=
  Routine.modify (Cursor.report e)

def failHere {α : Type} (message : String) : Parser α := do
  Routine.leave (.plain message (← here))

def failAt {α : Type} (location : Location) (message : String) : Parser α :=
  Routine.leave (.plain message location)

def expect (m : Mark) : Parser Token := do
  if ← check m then advance else failHere s!"Expected {m.name}"

def expectIdentifier (message : String) : Parser Identifier := do
  match ← peekKind with
  | .identifier name =>
    let token ← advance
    return ⟨name, token.location⟩
  | _ => failHere message

def expectMemberName : Parser Identifier := do
  match (← peekKind).memberName? with
  | some name =>
    let token ← advance
    return ⟨name, token.location⟩
  | none => failHere "Expected member name"

def expectString (message : String) : Parser String := do
  match ← peekKind with
  | .string value =>
    let _ ← advance
    return value
  | _ => failHere message

def statementEnds : List Mark :=
  [.newline, .colon, .endOfText, .elseWord, .elseIf, .endIf]

def atStatementEnd : Parser Bool :=
  checkAny statementEnds

def locationFrom (start : Location) : Parser Location :=
  Routine.view (Cursor.locationFrom · start)

/-- The number of the next function without a name. -/
def nextUnnamed : Parser Nat :=
  Routine.change fun c => (c.unnamed, { c with unnamed := c.unnamed + 1 })

end Parser

end BrightScript
