/-!
# Places in a script

A `Span` counts bytes from the start of a text, a `Position` names a line (from 1) and a byte column
in it (from 0), and a `Location` puts both together with the name of the file. Locations are joined
in two ways: `union` covers both ranges whatever their order, `upTo` runs from the start of the
first to the end of the second.
-/

namespace BrightScript

structure Span where
  start : Nat
  stop : Nat
  deriving DecidableEq, Repr, Inhabited

namespace Span

def length (s : Span) : Nat :=
  s.stop - s.start

def isEmpty (s : Span) : Bool :=
  s.length == 0

def union (a b : Span) : Span :=
  ⟨min a.start b.start, max a.stop b.stop⟩

end Span

structure Position where
  line : Nat
  column : Nat
  deriving DecidableEq, Repr, Inhabited

namespace Position

/-- Whether one position stands before another or is the same. -/
def le (a b : Position) : Bool :=
  a.line < b.line || (a.line == b.line && a.column ≤ b.column)

def earlier (a b : Position) : Position :=
  if a.le b then a else b

def later (a b : Position) : Position :=
  if a.le b then b else a

end Position

/-- A range in a named file, by positions and by bytes. -/
structure Location where
  file : String
  start : Position
  stop : Position
  span : Span
  deriving DecidableEq, Repr

namespace Location

def builtin : Location :=
  ⟨"(internal)", ⟨1, 0⟩, ⟨1, 0⟩, ⟨0, 0⟩⟩

instance : Inhabited Location := ⟨builtin⟩

def union (a b : Location) : Location :=
  ⟨a.file, a.start.earlier b.start, a.stop.later b.stop, a.span.union b.span⟩

def upTo (a b : Location) : Location :=
  ⟨a.file, a.start, b.stop, ⟨a.span.start, b.span.stop⟩⟩

/-- `file(line,column)`, with `-column` for the end when it is another column of the same line. A
range over several lines shows its last line twice. -/
def text (l : Location) : String :=
  if l.start.line = l.stop.line then
    let range := if l.start.column = l.stop.column then "" else s!"-{l.stop.column}"
    s!"{l.file}({l.start.line},{l.start.column}{range})"
  else s!"{l.file}({l.start.line},{l.start.column},{l.stop.line},{l.stop.line})"

/-- The file and line as backtraces show them: the file belongs to the package volume unless it
already names it, and a missing line is written `??`. -/
def packageText (l : Location) : String :=
  let file := if "pkg:".toList.isPrefixOf l.file.toList then l.file else "pkg:/" ++ l.file
  let line := if 0 < l.start.line then toString l.start.line else "??"
  s!"{file}({line})"

@[simp] theorem union_file (a b : Location) : (a.union b).file = a.file := rfl

@[simp] theorem upTo_start (a b : Location) : (a.upTo b).start = a.start := rfl

@[simp] theorem upTo_stop (a b : Location) : (a.upTo b).stop = b.stop := rfl

end Location

/-- A point reached in a text: the bytes passed and the position. -/
structure Place where
  offset : Nat
  position : Position
  deriving DecidableEq, Repr

namespace Place

def start : Place :=
  ⟨0, ⟨1, 0⟩⟩

def next (p : Place) (c : Char) : Place :=
  let offset := p.offset + c.utf8Size
  if c = '\n' then ⟨offset, ⟨p.position.line + 1, 0⟩⟩
  else ⟨offset, ⟨p.position.line, p.position.column + c.utf8Size⟩⟩

def after (p : Place) (text : List Char) : Place :=
  text.foldl next p

def range (p q : Place) (file : String) : Location :=
  ⟨file, p.position, q.position, ⟨p.offset, q.offset⟩⟩

end Place

def byteLength (text : List Char) : Nat :=
  text.foldl (fun bytes c => bytes + c.utf8Size) 0

/-- The characters within the first `count` bytes of a text. -/
def takeBytes : (count : Nat) → List Char → List Char
  | _, [] => []
  | count, c :: rest =>
    if c.utf8Size ≤ count then c :: takeBytes (count - c.utf8Size) rest else []

/-- The position of a byte offset, counted from the start of the text: one line more than the
newlines before it, and the bytes since the last of them. -/
def Position.ofOffset (text : List Char) (offset : Nat) : Position :=
  let before := takeBytes offset text
  ⟨before.count '\n' + 1, byteLength (before.reverse.takeWhile (· != '\n'))⟩

def Location.ofSpan (file : String) (text : List Char) (span : Span) : Location :=
  ⟨file, .ofOffset text span.start, .ofOffset text span.stop, span⟩

end BrightScript
