import BrightScript.Location

/-!
# Syntax errors

What is wrong with a script text, where, and sometimes what would have been right. A script is
refused with all its errors at once.
-/

namespace BrightScript

structure SyntaxError where
  message : String
  location : Location
  help : Option String
  deriving DecidableEq, Repr, Inhabited

namespace SyntaxError

def plain (message : String) (location : Location) : SyntaxError :=
  ⟨message, location, none⟩

def text (e : SyntaxError) : String :=
  s!"{e.location.text}: {e.message}"

def summary (errors : List SyntaxError) : String :=
  s!"{errors.length} syntax error(s)"

end SyntaxError

end BrightScript
