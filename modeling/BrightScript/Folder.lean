import BrightScript.CommandLine

/-!
# Folders

The files that a command can open, known by their components from the folder it is run in. A path is
walked component by component: each step names a file or a folder below the one before, and the
first step that cannot be made says why the file cannot be opened. What lies outside the folder is
taken to hold no files.
-/

namespace BrightScript

inductive OpenError where
  | missing
  | notFolder
  | isFolder
  | nameTooLong
  deriving DecidableEq, Repr

namespace OpenError

def number : OpenError → Nat
  | missing => 2
  | notFolder => 20
  | isFolder => 21
  | nameTooLong => 36

def ofNumber? (n : Nat) : Option OpenError :=
  [missing, notFolder, isFolder, nameTooLong].find? (·.number = n)

def words : OpenError → String
  | missing => "No such file or directory"
  | notFolder => "Not a directory"
  | isFolder => "Is a directory"
  | nameTooLong => "File name too long"

def message (e : OpenError) : String :=
  s!"{e.words} (os error {e.number})"

end OpenError

/-- Files by their components, each with its text. -/
structure Folder where
  files : List (List String × String)

namespace Folder

def nameLimit : Nat := 255

def pathLimit : Nat := 4095

def ofFiles (files : List (String × String)) : Folder :=
  ⟨files.reverse.map fun (path, text) => (CommandLine.components path, text)⟩

def stays (component : String) : Bool :=
  component = "" || component = "."

def hasFolder (f : Folder) (place : List String) : Bool :=
  f.files.any fun (components, _) => place.isPrefixOf components

def walkOutside : List String → OpenError
  | [] => .isFolder
  | c :: rest =>
    if stays c || c = ".." then walkOutside rest
    else if nameLimit < c.utf8ByteSize then .nameTooLong
    else .missing

/-- The text of the file that a walk ends at. The walk goes on from a folder at `place`. -/
def walk (f : Folder) (place : List String) : List String → Except OpenError String
  | [] => .error .isFolder
  | c :: rest =>
    if stays c then walk f place rest
    else if c = ".." then
      if place.isEmpty then .error (walkOutside rest) else walk f place.dropLast rest
    else if nameLimit < c.utf8ByteSize then .error .nameTooLong
    else
      match f.files.lookup (place ++ [c]) with
      | some text => if rest.isEmpty then .ok text else .error .notFolder
      | none =>
        if f.hasFolder (place ++ [c]) then walk f (place ++ [c]) rest else .error .missing

def read (f : Folder) (path : String) : Except OpenError String :=
  if path.isEmpty then .error .missing
  else if pathLimit < path.utf8ByteSize then .error .nameTooLong
  else
    match Text.splitOn path "/" with
    | "" :: components => .error (walkOutside components)
    | components => f.walk [] components

end Folder

end BrightScript
