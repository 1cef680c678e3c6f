import BrightScript.Syntax.Statement
import BrightScript.Token.Scan

/-!
# Reading scripts

The rules of the grammar are tied together by a budget: a rule at budget `n + 1` nests rules at
budget `n`. Since every rule passes a token before it nests another, one more than the number of
tokens is enough for any text. `parse` reads a whole script, reports all errors it finds, and goes
on after an error at the next line.
-/

namespace BrightScript

mutual

def parseExpression : (budget : Nat) → (least : Nat) → Parser Expr
  | 0, _ => Routine.giveUp
  | n + 1, least =>
    Grammar.expressionRule ⟨parseExpression n, parseSigned n, parseStatement n⟩ n least

def parseSigned : (budget : Nat) → Parser Expr
  | 0 => Routine.giveUp
  | n + 1 => Grammar.signedRule ⟨parseExpression n, parseSigned n, parseStatement n⟩ n

def parseStatement : (budget : Nat) → Parser Statement
  | 0 => Routine.giveUp
  | n + 1 => Grammar.statementRule ⟨parseExpression n, parseSigned n, parseStatement n⟩ n

end

/-- The grammar whose rules may nest `budget` deep. -/
def Grammar.ofBudget (budget : Nat) : Grammar :=
  ⟨parseExpression budget, parseSigned budget, parseStatement budget⟩

def Grammar.programStep (g : Grammar) (found : List Statement) :
    Parser (List Statement ⊕ List Statement) := do
  Parser.skip [.newline, .colon]
  if ← Parser.check .endOfText then return .inr found.reverse
  return .inl (← g.blockStatement [] found)

def parseProgram (budget : Nat) : Parser (List Statement) :=
  Routine.iterate (Grammar.ofBudget budget).programStep budget []

def parseTokens (tokens : List Token) : Except (List SyntaxError) (List Statement) :=
  match parseProgram (tokens.length + 1) (.ofTokens tokens) with
  | .done statements cursor =>
    if cursor.errors.isEmpty then .ok statements else .error cursor.errors.reverse
  | .exit e cursor => .error (e :: cursor.errors).reverse
  | .exhausted => .error []

def LexicalError.toSyntaxError (file : String) (text : List Char) (e : LexicalError) :
    SyntaxError :=
  .plain e.message (.ofSpan file text e.span)

def parse (file source : String) : Except (List SyntaxError) (List Statement) :=
  match Token.scan file source with
  | .ok tokens => parseTokens tokens
  | .error errors => .error (errors.map (LexicalError.toSyntaxError file source.toList))

end BrightScript
