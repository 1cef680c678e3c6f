import BrightScript.Location
import BrightScript.Text.Fold

/-!
# Tokens

A token is an identifier, a literal or a `Mark`: a keyword, an operator, a bracket or a separator,
which carries nothing beyond what it is. Some keywords are written in two words; `TokenKind.join?`
says which pairs of words make one.
-/

namespace BrightScript

/-- Tokens that are determined by their spelling. -/
inductive Mark where
  | andWord | orWord | notWord | modWord
  | ifWord | thenWord | elseWord | elseIf | endIf
  | forWord | forEach | toWord | stepWord | inWord | nextWord | endFor
  | whileWord | endWhile | exitFor | exitWhile | continueFor | continueWhile
  | functionWord | endFunction | subWord | endSub | returnWord
  | printWord | gotoWord | dimWord | endWord | stopWord
  | tryWord | catchWord | endTry | throwWord | libraryWord | asWord
  | trueWord | falseWord | invalidWord
  | plus | minus | star | slash | backslash | caret
  | equal | notEqual | less | lessEqual | greater | greaterEqual | shiftLeft | shiftRight
  | plusEqual | minusEqual | starEqual | slashEqual | backslashEqual
  | shiftLeftEqual | shiftRightEqual | increment | decrement
  | dot | comma | colon | semicolon
  | question | questionDot | questionBracket | questionParen | atSign
  | leftParen | rightParen | leftBrace | rightBrace | leftBracket | rightBracket
  | newline | endOfText
  deriving DecidableEq, Repr, Inhabited

namespace Mark

def name : Mark → String
  | andWord => "And" | orWord => "Or" | notWord => "Not" | modWord => "Mod"
  | ifWord => "If" | thenWord => "Then" | elseWord => "Else" | elseIf => "ElseIf"
  | endIf => "EndIf" | forWord => "For" | forEach => "ForEach" | toWord => "To"
  | stepWord => "Step" | inWord => "In" | nextWord => "Next" | endFor => "EndFor"
  | whileWord => "While" | endWhile => "EndWhile" | exitFor => "ExitFor"
  | exitWhile => "ExitWhile" | continueFor => "ContinueFor" | continueWhile => "ContinueWhile"
  | functionWord => "Function" | endFunction => "EndFunction" | subWord => "Sub"
  | endSub => "EndSub" | returnWord => "Return" | printWord => "Print" | gotoWord => "Goto"
  | dimWord => "Dim" | endWord => "End" | stopWord => "Stop" | tryWord => "Try"
  | catchWord => "Catch" | endTry => "EndTry" | throwWord => "Throw" | libraryWord => "Library"
  | asWord => "As" | trueWord => "True" | falseWord => "False" | invalidWord => "Invalid"
  | plus => "Plus" | minus => "Minus" | star => "Star" | slash => "Slash"
  | backslash => "Backslash" | caret => "Caret" | equal => "Eq" | notEqual => "LtGt"
  | less => "Lt" | lessEqual => "LtEq" | greater => "Gt" | greaterEqual => "GtEq"
  | shiftLeft => "LtLt" | shiftRight => "GtGt" | plusEqual => "PlusEq" | minusEqual => "MinusEq"
  | starEqual => "StarEq" | slashEqual => "SlashEq" | backslashEqual => "BackslashEq"
  | shiftLeftEqual => "LtLtEq" | shiftRightEqual => "GtGtEq" | increment => "PlusPlus"
  | decrement => "MinusMinus" | dot => "Dot" | comma => "Comma" | colon => "Colon"
  | semicolon => "Semi" | question => "Question" | questionDot => "QuestionDot"
  | questionBracket => "QuestionLBracket" | questionParen => "QuestionLParen" | atSign => "At"
  | leftParen => "LParen" | rightParen => "RParen" | leftBrace => "LBrace"
  | rightBrace => "RBrace" | leftBracket => "LBracket" | rightBracket => "RBracket"
  | newline => "Newline" | endOfText => "Eof"

/-- The keywords that are a word of the language on their own and may also name a member. -/
def plainKeywords : List (String × Mark) :=
  [("and", andWord), ("or", orWord), ("not", notWord), ("mod", modWord), ("if", ifWord),
   ("then", thenWord), ("else", elseWord), ("for", forWord), ("to", toWord), ("step", stepWord),
   ("in", inWord), ("next", nextWord), ("while", whileWord), ("function", functionWord),
   ("sub", subWord), ("return", returnWord), ("print", printWord), ("goto", gotoWord),
   ("dim", dimWord), ("end", endWord), ("stop", stopWord), ("try", tryWord), ("catch", catchWord),
   ("throw", throwWord), ("library", libraryWord), ("as", asWord), ("true", trueWord),
   ("false", falseWord), ("invalid", invalidWord)]

/-- Keywords usually written in two words, spelled as one. -/
def joinedKeywords : List (String × Mark) :=
  [("elseif", elseIf), ("endif", endIf), ("endwhile", endWhile), ("exitfor", exitFor),
   ("exitwhile", exitWhile), ("endfunction", endFunction), ("endsub", endSub),
   ("endtry", endTry)]

def ofWord? (word : String) : Option Mark :=
  (plainKeywords ++ joinedKeywords).lookup word

def word? (m : Mark) : Option String :=
  (plainKeywords.find? (·.2 == m)).map (·.1)

def isTerminator (m : Mark) : Bool :=
  m == newline || m == colon || m == endOfText

end Mark

inductive TokenKind where
  | identifier (name : String)
  | integer (value : Int32)
  | longInteger (value : Int64)
  | float (value : Float32)
  | double (value : Float)
  | string (value : String)
  | mark (m : Mark)
  deriving Inhabited

namespace TokenKind

def is (k : TokenKind) (m : Mark) : Bool :=
  match k with
  | mark n => n == m
  | _ => false

def isOneOf (k : TokenKind) (ms : List Mark) : Bool :=
  match k with
  | mark n => ms.contains n
  | _ => false

/-- The token of a folded word: its keyword, or an identifier. -/
def ofWord (word : String) : TokenKind :=
  match Mark.ofWord? word with
  | some m => mark m
  | none => identifier word

def join? (k : TokenKind) (next : String) : Option Mark :=
  match k with
  | mark .endWord =>
    [("if", Mark.endIf), ("for", .endFor), ("while", .endWhile), ("function", .endFunction),
     ("sub", .endSub), ("try", .endTry)].lookup next
  | mark .elseWord => if next = "if" then some .elseIf else none
  | mark .forWord => if next = "each" then some .forEach else none
  | identifier word =>
    if Text.sameWord word "exit" then
      [("for", Mark.exitFor), ("while", .exitWhile)].lookup next
    else if Text.sameWord word "continue" then
      [("for", Mark.continueFor), ("while", .continueWhile)].lookup next
    else none
  | _ => none

def isTerminator : TokenKind → Bool
  | mark m => m.isTerminator
  | _ => false

def keyword? : TokenKind → Option String
  | mark m => m.word?
  | _ => none

/-- The name a token gives to a member after a dot: identifiers and plain keywords do. -/
def memberName? : TokenKind → Option String
  | identifier name => some name
  | k => k.keyword?

end TokenKind

structure Token where
  kind : TokenKind
  location : Location
  deriving Inhabited

end BrightScript
