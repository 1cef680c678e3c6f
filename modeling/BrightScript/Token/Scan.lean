import BrightScript.Token.Lexeme

/-!
# Tokens of a text

`Token.scan` cuts a text into lexemes and keeps the tokens with their locations, which it tracks
while it passes over the characters. The last token marks the end of the text. All lexical errors of
a text are reported together; a text that has one has no tokens.
-/

namespace BrightScript

structure LexicalError where
  message : String
  span : Span
  deriving DecidableEq, Repr

/-- The tokens and errors found so far, the latest first. -/
structure Token.Found where
  tokens : List Token
  errors : List LexicalError

namespace Token

def Found.add (found : Found) (file : String) (start stop : Place) : Lexeme.Content → Found
  | .skipped => found
  | .token kind => { found with tokens := ⟨kind, start.range stop file⟩ :: found.tokens }
  | .error message =>
    { found with errors := ⟨message, ⟨start.offset, stop.offset⟩⟩ :: found.errors }

def scanFrom (file : String) (place : Place) (text : List Char) (found : Found) : Found × Place :=
  match text with
  | [] => (found, place)
  | c :: rest =>
    let lexeme := Lexeme.ofText c rest
    let stop := place.after (c :: rest.take lexeme.extra)
    scanFrom file stop (rest.drop lexeme.extra) (found.add file place stop lexeme.content)
termination_by text.length
decreasing_by
  simp only [List.length_drop, List.length_cons]
  omega

def scan (file source : String) : Except (List LexicalError) (List Token) :=
  let (found, stop) := scanFrom file .start source.toList ⟨[], []⟩
  if found.errors.isEmpty then
    .ok ((⟨.mark .endOfText, stop.range stop file⟩ :: found.tokens).reverse)
  else .error found.errors.reverse

end Token

end BrightScript
