import BrightScript.Evaluate.Program
import BrightScript.Syntax.Program

/-!
# The command line

`check` reads a script and reports its syntax errors, `run` runs it, and `debug` runs it under a
console that shares the output of the script and stops at errors that nothing catches. What a
command does is a function of its arguments, the environment, the text of the script and the input.
-/

namespace BrightScript

/-- A command and all that it can see. -/
structure Invocation where
  args : List String
  env : String → Option String
  /-- The text of the file named by the second argument, or why it cannot be read. -/
  source : Except String String
  input : String

/-- What a command leaves behind. -/
structure Report where
  exitCode : Nat
  stdout : String
  stderr : String
  deriving DecidableEq, Repr

namespace CommandLine

def usage : String :=
  "Usage: brs-lang [run|check|debug] <file.brs>"

def components (path : String) : List String :=
  (Text.splitOn path "/").filter fun c => c != "" && c != "."

def fileName? (path : String) : Option String :=
  (components path).getLast?.filter (· != "..")

/-- What follows the last point of a file name; a point at the start does not count. -/
def extension? (path : String) : Option String := do
  let name ← fileName? path
  let pieces := Text.splitOn name "."
  if pieces.length < 2 || pieces.dropLast = [""] then none else pieces.getLast?

def failure (message : String) : Report :=
  ⟨1, "", message ++ "\n"⟩

def syntaxFailure (errors : List SyntaxError) : Report :=
  ⟨1, "", String.join (errors.map fun e => e.text ++ "\n")⟩

def finished (result : Except ScriptError Finish) (s : Session) : Report :=
  match result with
  | .ok _ => ⟨0, s.stdout, s.stderr⟩
  | .error e => ⟨1, s.stdout, s.stderr ++ e.report ++ "\n"⟩

def unreadable (path reason : String) : Report :=
  failure s!"Failed to access {path}: {reason}"

def check (path : String) (source : Except String String) : Report :=
  match source with
  | .error reason => unreadable path reason
  | .ok text =>
    match parse ((fileName? path).getD path) text with
    | .ok _ => ⟨0, "", ""⟩
    | .error errors => syntaxFailure errors

def session (options : Options) (debug : Bool) (input : String) : Session :=
  let options := { options with stopOnCrash := options.stopOnCrash || debug }
  if debug then { Session.new options with debugger := .console (Console.linesOf input) .stdout }
  else .new options

def run (path : String) (debug : Bool) (invocation : Invocation) : Report :=
  match Options.ofEnvironment invocation.env with
  | .error e => failure s!"Invalid configuration: {e.message}"
  | .ok options =>
    match invocation.source with
    | .error reason => unreadable path reason
    | .ok text =>
      match parse ((fileName? path).getD path) text with
      | .error errors => syntaxFailure errors
      | .ok statements =>
        match (session options debug invocation.input).exec ampleBudget statements [] with
        | some (result, s) => finished result s
        | none => failure "Interpreter thread terminated unexpectedly."

def execute (invocation : Invocation) : Report :=
  match invocation.args with
  | [command, path] =>
    if extension? path ≠ some "brs" then
      failure "Invalid file extension. Only .brs files are allowed."
    else if command = "check" then check path invocation.source
    else if command = "run" then run path false invocation
    else if command = "debug" then run path true invocation
    else failure s!"Invalid command. {usage}"
  | _ => failure usage

end CommandLine

end BrightScript
