import BrightScript.Token.Numeral
import BrightScript.Text.Blank

/-!
# Lexemes

`Lexeme.ofText` looks at the front of a text that is not empty and says how many characters belong
together there and what they are: a token, nothing (blanks and comments), or an error. A lexeme
always has its first character, so a text is used up lexeme by lexeme.
-/

namespace BrightScript

/-- What a lexeme stands for. -/
inductive Lexeme.Content where
  | skipped
  | token (kind : TokenKind)
  | error (message : String)

/-- A run of characters that belong together: the first one and `extra` more. -/
structure Lexeme where
  extra : Nat
  content : Lexeme.Content

namespace Lexeme

def isWordChar (c : Char) : Bool :=
  c.isAlphanum || c == '_'

def isWordStart (c : Char) : Bool :=
  c.isAlpha || c == '_'

/-- Whether a text starts with the letter h, as it does after the `&` of a hexadecimal literal. -/
def startsHex : List Char → Bool
  | 'h' :: _ => true
  | 'H' :: _ => true
  | _ => false

/-- Whether a kind letter stands at the front of the text after a word. An `&` that starts a
hexadecimal literal is none. -/
def hasDesignator : List Char → Bool
  | '$' :: _ => true
  | '%' :: _ => true
  | '!' :: _ => true
  | '#' :: _ => true
  | '&' :: rest => !startsHex rest
  | _ => false

def lineLength (text : List Char) : Nat :=
  (text.takeWhile (· != '\n')).length

/-- The keyword made by a token and the next word on the line, with the number of characters of the
gap and that word. -/
def joined (kind : TokenKind) (text : List Char) : Option (Mark × Nat) :=
  let gap := text.takeWhile fun c => c == ' ' || c == '\t'
  let next := (text.drop gap.length).takeWhile isWordChar
  if gap.isEmpty || next.isEmpty then none
  else (kind.join? (Text.fold (String.ofList next))).map fun m => (m, gap.length + next.length)

/-- A word: an identifier with its kind letter, a keyword of one or two words, or a comment. -/
def word (c : Char) (rest : List Char) : Lexeme :=
  let letters := rest.takeWhile isWordChar
  let after := rest.drop letters.length
  let spelling := String.ofList (c :: letters)
  if hasDesignator after then
    ⟨letters.length + 1, .token (.identifier (spelling ++ String.ofList (after.take 1)))⟩
  else
    let folded := Text.fold spelling
    if folded = "rem" then ⟨letters.length + lineLength after, .skipped⟩
    else
      let kind :=
        match Mark.ofWord? folded with
        | some m => TokenKind.mark m
        | none => .identifier spelling
      match joined kind after with
      | some (m, length) => ⟨letters.length + length, .token (.mark m)⟩
      | none => ⟨letters.length, .token kind⟩

/-- A numeric literal at the front of `text`. -/
def number (text : List Char) : Lexeme :=
  match NumericLiteral.ofText? text with
  | some ⟨length, .ok kind⟩ => ⟨length - 1, .token kind⟩
  | some ⟨length, .error message⟩ => ⟨length - 1, .error message⟩
  | none => ⟨0, .error "Invalid numeric literal"⟩

/-- The text after an opening quote up to the closing one, where two quotes stand for one. Counts
the characters passed; there is no value when the line ends first. -/
def quoted : List Char → (value : List Char) → (count : Nat) → Nat × Option (List Char)
  | '"' :: '"' :: rest, value, count => quoted rest ('"' :: value) (count + 2)
  | '"' :: _, value, count => (count + 1, some value.reverse)
  | '\n' :: _, _, count => (count, none)
  | [], _, count => (count, none)
  | c :: rest, value, count => quoted rest (c :: value) (count + 1)

def string (rest : List Char) : Lexeme :=
  match quoted rest [] 0 with
  | (count, some value) => ⟨count, .token (.string (String.ofList value))⟩
  | (count, none) => ⟨count, .error "String missing ending quote."⟩

def startsDigit : List Char → Bool
  | c :: _ => c.isDigit
  | [] => false

/-- An operator, bracket or separator, the longest one that fits, with its further characters. -/
def symbol? (c : Char) (rest : List Char) : Option (Nat × Mark) :=
  match c, rest with
  | '+', '=' :: _ => some (1, .plusEqual)
  | '+', '+' :: _ => some (1, .increment)
  | '+', _ => some (0, .plus)
  | '-', '=' :: _ => some (1, .minusEqual)
  | '-', '-' :: _ => some (1, .decrement)
  | '-', _ => some (0, .minus)
  | '*', '=' :: _ => some (1, .starEqual)
  | '*', _ => some (0, .star)
  | '/', '=' :: _ => some (1, .slashEqual)
  | '/', _ => some (0, .slash)
  | '\\', '=' :: _ => some (1, .backslashEqual)
  | '\\', _ => some (0, .backslash)
  | '^', _ => some (0, .caret)
  | '=', _ => some (0, .equal)
  | '<', '>' :: _ => some (1, .notEqual)
  | '<', '=' :: _ => some (1, .lessEqual)
  | '<', '<' :: '=' :: _ => some (2, .shiftLeftEqual)
  | '<', '<' :: _ => some (1, .shiftLeft)
  | '<', _ => some (0, .less)
  | '>', '=' :: _ => some (1, .greaterEqual)
  | '>', '>' :: '=' :: _ => some (2, .shiftRightEqual)
  | '>', '>' :: _ => some (1, .shiftRight)
  | '>', _ => some (0, .greater)
  | '?', '.' :: more => if startsDigit more then some (0, .question) else some (1, .questionDot)
  | '?', '[' :: _ => some (1, .questionBracket)
  | '?', '(' :: _ => some (1, .questionParen)
  | '?', _ => some (0, .question)
  | '.', _ => some (0, .dot)
  | ',', _ => some (0, .comma)
  | ':', _ => some (0, .colon)
  | ';', _ => some (0, .semicolon)
  | '@', _ => some (0, .atSign)
  | '(', _ => some (0, .leftParen)
  | ')', _ => some (0, .rightParen)
  | '{', _ => some (0, .leftBrace)
  | '}', _ => some (0, .rightBrace)
  | '[', _ => some (0, .leftBracket)
  | ']', _ => some (0, .rightBracket)
  | _, _ => none

/-- The lexeme at the front of the text `c :: rest`. -/
def ofText (c : Char) (rest : List Char) : Lexeme :=
  if c = '\'' then ⟨lineLength rest, .skipped⟩
  else if c = '\n' then ⟨0, .token (.mark .newline)⟩
  else if Text.isBlank c then ⟨0, .skipped⟩
  else if isWordStart c then word c rest
  else if c.isDigit || (c = '.' && startsDigit rest) || (c = '&' && startsHex rest) then
    number (c :: rest)
  else if c = '"' then string rest
  else
    match symbol? c rest with
    | some (extra, m) => ⟨extra, .token (.mark m)⟩
    | none => ⟨0, .error s!"Unexpected character '{c}'"⟩

end Lexeme

end BrightScript
