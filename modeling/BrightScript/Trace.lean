import BrightScript.Heap

/-!
# Call stacks and backtraces

A call stack lists the open calls, the innermost first. A backtrace says for every frame which line
it has reached: the innermost frame is at a given location, and every other frame at the call that
opened the frame inside it. There are two forms: a text with the innermost frame first, and an array
for scripts with the outermost first.
-/

namespace BrightScript

structure Frame where
  name : String
  location : Location
  call : Location
  signature : Signature

def Frame.signatureText (f : Frame) : String :=
  let parameters := f.signature.arguments.map fun a => s!"{a.name} As {a.kind.name}"
  let list := ",".intercalate parameters
  s!"{f.name}({list}) As {f.signature.returns.name}"

/-- A frame and the location it has reached. -/
structure TraceEntry where
  frame : Frame
  reached : Location

/-- The frames of a stack with the locations they have reached, the innermost first. -/
def traceFrom (reached : Location) : List Frame → List TraceEntry
  | [] => []
  | frame :: rest => ⟨frame, reached⟩ :: traceFrom frame.call rest

def traceText : List TraceEntry → String
  | [] => ""
  | entry :: rest =>
    s!"#{rest.length}  Function {entry.frame.signatureText}\r\n" ++
      s!"   file/line: {entry.reached.packageText}\r\n" ++ traceText rest

def backtraceText (reached : Location) (stack : List Frame) : String :=
  traceText (traceFrom reached stack)

def TraceEntry.members (e : TraceEntry) : List (String × Value) :=
  [("filename", .string e.reached.file), ("function", .string e.frame.signatureText),
   ("line_number", .integer (Int32.ofNat e.reached.start.line))]

def Heap.newEntries (h : Heap) : List TraceEntry → List Value × Heap
  | [] => ([], h)
  | entry :: rest =>
    let (ref, h) := h.newAssoc (.ofMembers entry.members)
    let (values, h) := Heap.newEntries h rest
    (.assoc ref :: values, h)

def Heap.newBacktrace (h : Heap) (reached : Location) (stack : List Frame) : ArrayRef × Heap :=
  let (values, h) := h.newEntries (traceFrom reached stack).reverse
  h.newArray (.ofList values)

end BrightScript
