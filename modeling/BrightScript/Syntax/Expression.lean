import BrightScript.Syntax.Cursor

/-!
# The grammar of expressions

Binary operators bind in seven strengths, of which the power operator is the strongest and has a
rule of its own; all of them group to the left. `not` stands between the logical operators and the
comparisons, and a sign binds looser than a power.

Each rule is written over a `Grammar`, the parsers for what is nested inside: a rule uses them only
after it has passed a token itself. The number `budget` bounds the loops of a rule.
-/

namespace BrightScript

/-- The parsers for nested phrases. -/
structure Grammar where
  /-- An expression of operators that bind at least as strongly as the given strength. -/
  expression : Nat → Parser Expr
  signed : Parser Expr
  statement : Parser Statement

namespace Grammar

open BrightScript.Parser

def operator? : TokenKind → Option (BinaryOp × Nat)
  | .mark .orWord => some (.or, 1)
  | .mark .andWord => some (.and, 2)
  | .mark .equal => some (.equal, 4)
  | .mark .notEqual => some (.notEqual, 4)
  | .mark .less => some (.less, 4)
  | .mark .lessEqual => some (.lessEqual, 4)
  | .mark .greater => some (.greater, 4)
  | .mark .greaterEqual => some (.greaterEqual, 4)
  | .mark .shiftLeft => some (.leftShift, 5)
  | .mark .shiftRight => some (.rightShift, 5)
  | .mark .plus => some (.add, 6)
  | .mark .minus => some (.subtract, 6)
  | .mark .star => some (.multiply, 7)
  | .mark .slash => some (.divide, 7)
  | .mark .backslash => some (.intDivide, 7)
  | .mark .modWord => some (.modulo, 7)
  | _ => none

/-- The strength of the operand of `not`. -/
def notStrength : Nat := 3

def anyStrength : Nat := 1

def literal? : TokenKind → Option Literal
  | .integer value => some (.integer value)
  | .longInteger value => some (.longInteger value)
  | .float value => some (.float value)
  | .double value => some (.double value)
  | .string value => some (.string value)
  | .mark .trueWord => some (.boolean true)
  | .mark .falseWord => some (.boolean false)
  | .mark .invalidWord => some .invalid
  | _ => none

variable (g : Grammar)

def any : Parser Expr :=
  g.expression anyStrength

def expressionStep (closing : Mark) (found : List Expr) :
    Parser (List Expr ⊕ List Expr × Location) := do
  skip [.newline]
  let e ← g.any
  skip [.newline]
  if ← accept .comma then return .inl (e :: found)
  let bracket ← expect closing
  return .inr ((e :: found).reverse, bracket.location)

/-- Expressions divided by commas up to a closing bracket, which is passed, and where that stands. -/
def expressionList (budget : Nat) (closing : Mark) : Parser (List Expr × Location) := do
  skip [.newline]
  if ← check closing then return ([], (← advance).location)
  Routine.iterate (g.expressionStep closing) budget []

def arrayStep (found : List Expr) : Parser (List Expr ⊕ List Expr) := do
  skip [.newline, .comma]
  if ← check .rightBracket then return .inr found.reverse
  return .inl ((← g.any) :: found)

/-- An array literal. Commas and newlines divide its elements, however many stand together. -/
def arrayLiteral (budget : Nat) : Parser Expr := do
  let start := (← advance).location
  let elements ← Routine.iterate g.arrayStep budget []
  let closing := (← expect .rightBracket).location
  return .arrayLiteral elements (start.union closing)

def memberKey : Parser String := do
  match ← peekKind with
  | .string value =>
    let _ ← advance
    return value
  | _ => return (← expectMemberName).name

/-- One more member of an associative array literal. -/
def assocStep (found : List Member) : Parser (List Member ⊕ List Member) := do
  skip [.newline, .comma]
  if ← check .rightBrace then return .inr found.reverse
  let name ← memberKey
  let _ ← expect .colon
  skip [.newline]
  let value ← g.any
  return .inl (⟨name, value⟩ :: found)

def assocLiteral (budget : Nat) : Parser Expr := do
  let start := (← advance).location
  let members ← Routine.iterate g.assocStep budget []
  let closing := (← expect .rightBrace).location
  return .assocLiteral members (start.union closing)

def typeName : Parser Kind := do
  let token ← advance
  match token.kind.memberName?.bind Kind.ofName? with
  | some kind => return kind
  | none => failAt token.location "Expected a type name"

/-- A parameter: its name, its default and its kind. Without a kind the letter behind the name
decides. -/
def parameter : Parser Parameter := do
  let name ← expectIdentifier "Expected parameter name"
  let default? ← if ← accept .equal then some <$> g.any else pure none
  let kind ←
    if ← accept .asWord then typeName
    else pure ((name.designator?.map Kind.ofDesignator).getD .dynamic)
  return ⟨name, kind, default?⟩

def parameterStep (found : List Parameter) : Parser (List Parameter ⊕ List Parameter) := do
  let found := (← g.parameter) :: found
  if ← accept .comma then return .inl found else return .inr found.reverse

def parameters (budget : Nat) : Parser (List Parameter) := do
  if ← check .rightParen then return []
  Routine.iterate g.parameterStep budget []

/-- One statement of a block. An error in it is reported and the rest of its line left out. -/
def blockStatement (terminators : List Mark) (found : List Statement) :
    Parser (List Statement) := do
  match ← Routine.attempt g.statement with
  | .ok statement =>
    let ended ← checkAny (statementEnds ++ terminators)
    if !ended then
      report (.plain "Expected newline or ':' after statement" (← here))
      skipLine
    return statement :: found
  | .error e =>
    report e
    skipLine
    return found

def markList (marks : List Mark) : String :=
  "[" ++ ", ".intercalate (marks.map Mark.name) ++ "]"

def blockStep (terminators : List Mark) (found : List Statement) :
    Parser (List Statement ⊕ List Statement) := do
  skip [.newline, .colon]
  if ← checkAny terminators then return .inr found.reverse
  if ← check .endOfText then
    Routine.leave
      ⟨"A block (such as FOR/NEXT or IF/ENDIF) was not terminated correctly.", ← here,
        some s!"expected {markList terminators}"⟩
  return .inl (← g.blockStatement terminators found)

def spanned (statements : Parser (List Statement)) : Parser Block := do
  let start ← here
  let found ← statements
  return ⟨found, ← locationFrom start⟩

def block (budget : Nat) (terminators : List Mark) : Parser Block :=
  spanned (Routine.iterate (g.blockStep terminators) budget [])

def procedureRest (budget : Nat) (name : String) (isSub : Bool) (start : Location) :
    Parser Procedure := do
  let _ ← expect .leftParen
  let parameters ← g.parameters budget
  let _ ← expect .rightParen
  let returns ←
    if ← accept .asWord then typeName else pure (if isSub then Kind.void else .dynamic)
  let terminator := if isSub then Mark.endSub else .endFunction
  let body ← g.block budget [terminator]
  let _ ← expect terminator
  return ⟨name, parameters, returns, isSub, body, ← locationFrom start⟩

/-- A function without a name, which is given a number instead. -/
def unnamedProcedure (budget : Nat) : Parser Expr := do
  let token ← advance
  let number ← nextUnnamed
  return .procedure
    (← g.procedureRest budget s!"$anon_{number}" (token.kind.is .subWord) token.location)

def grouping : Parser Expr := do
  let opening := (← advance).location
  skip [.newline]
  let inner ← g.any
  skip [.newline]
  let closing := (← expect .rightParen).location
  return .grouping inner (opening.union closing)

/-- A constant, a name, or a phrase with brackets of its own. -/
def primary (budget : Nat) : Parser Expr := do
  let token ← peek
  match token.kind with
  | .identifier name =>
    let _ ← advance
    return .reference ⟨name, token.location⟩
  | .mark .leftParen => g.grouping
  | .mark .leftBracket => g.arrayLiteral budget
  | .mark .leftBrace => g.assocLiteral budget
  | .mark .functionWord => g.unnamedProcedure budget
  | .mark .subWord => g.unnamedProcedure budget
  | kind =>
    match literal? kind with
    | some value =>
      let _ ← advance
      return .literal value token.location
    | none => failHere "Expected expression"

def link (budget : Nat) (e : Expr) : Parser (Expr ⊕ Expr) := do
  let kind ← peekKind
  if kind.isOneOf [.leftParen, .questionParen] then
    let _ ← advance
    let (args, closing) ← g.expressionList budget .rightParen
    return .inl (.call e args (kind.is .questionParen) closing (e.location.union closing))
  else if kind.isOneOf [.dot, .questionDot] then
    let _ ← advance
    let name ← expectMemberName
    return .inl (.dottedGet e name (kind.is .questionDot) (e.location.union name.location))
  else if kind.isOneOf [.leftBracket, .questionBracket] then
    let _ ← advance
    let (indexes, closing) ← g.expressionList budget .rightBracket
    return .inl (.indexedGet e indexes (kind.is .questionBracket) closing
      (e.location.union closing))
  else if kind.is .atSign then
    let _ ← advance
    let name ← expectMemberName
    return .inl (.attributeGet e name (e.location.union name.location))
  else return .inr e

def chain (budget : Nat) : Parser Expr := do
  let first ← g.primary budget
  Routine.iterate (g.link budget) budget first

/-- The exponent of a power, which may have a minus sign. -/
def exponent (budget : Nat) : Parser Expr := do
  if ← check .minus then
    let start := (← advance).location
    let operand ← g.chain budget
    return .unary .negate operand (start.union operand.location)
  else g.chain budget

def powerStep (budget : Nat) (left : Expr) : Parser (Expr ⊕ Expr) := do
  if ← accept .caret then
    let right ← g.exponent budget
    return .inl (.binary left .power right (left.location.union right.location))
  else return .inr left

def power (budget : Nat) : Parser Expr := do
  let first ← g.chain budget
  Routine.iterate (g.powerStep budget) budget first

def sign? : TokenKind → Option UnaryOp
  | .mark .minus => some .negate
  | .mark .plus => some .plus
  | _ => none

def signedRule (budget : Nat) : Parser Expr := do
  match sign? (← peekKind) with
  | some op =>
    let start := (← advance).location
    let operand ← g.signed
    return .unary op operand (start.union operand.location)
  | none => g.power budget

def operand (budget : Nat) : Parser Expr := do
  if ← check .notWord then
    let start := (← advance).location
    let inner ← g.expression notStrength
    return .unary .not inner (start.union inner.location)
  else g.signedRule budget

/-- One more operator and operand of at least the given strength, or the end. -/
def operation (least : Nat) (left : Expr) : Parser (Expr ⊕ Expr) := do
  match operator? (← peekKind) with
  | some (op, strength) =>
    if strength < least then return .inr left
    let _ ← advance
    let right ← g.expression (strength + 1)
    return .inl (.binary left op right (left.location.union right.location))
  | none => return .inr left

def expressionRule (budget : Nat) (least : Nat) : Parser Expr := do
  let first ← g.operand budget
  Routine.iterate (g.operation least) budget first

end Grammar

end BrightScript
