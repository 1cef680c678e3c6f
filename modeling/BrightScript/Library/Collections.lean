import BrightScript.Library.Arguments
import BrightScript.Run

/-!
# Arrays and associative arrays

The methods of the two collections, and the making of objects by their class name.
-/

namespace BrightScript.Library

/-- The strings in a list of values; none if one of them is no string. -/
def strings? (values : List Value) : Option (List String) :=
  values.mapM fun v =>
    match v.unbox with
    | .string s => some s
    | _ => none

/-- The strings of an array with a text between them; the empty text if it holds anything else. -/
def join (a : ArrayObject) (separator : String) : String :=
  match strings? a.toList with
  | some parts => separator.intercalate parts
  | none => ""

def dropFirst (a : ArrayObject) : ArrayObject :=
  ⟨a.elements.extract 1 a.size⟩

def arrayMethod (m : ArrayMethod) (r : ArrayRef) (args : List Value) : Run Value := do
  match m with
  | .count => return int32 (← Run.array r).size
  | .push =>
    if let some v := args.head? then Run.modifyArray r fun a => ⟨a.elements.push v⟩
    return .invalid
  | .pop =>
    let last := (← Run.array r).elements.back?.getD .invalid
    Run.modifyArray r fun a => ⟨a.elements.pop⟩
    return last
  | .shift =>
    let first := (← Run.array r).get 0
    Run.modifyArray r dropFirst
    return first
  | .unshift =>
    if let some v := args.head? then Run.modifyArray r fun a => ⟨#[v] ++ a.elements⟩
    return .invalid
  | .peek => return (← Run.array r).elements.back?.getD .invalid
  | .clear =>
    Run.modifyArray r fun _ => default
    return .invalid
  | .append =>
    if let some (.array other) := args.head? then
      let more ← Run.array other
      Run.modifyArray r fun a => ⟨a.elements ++ more.elements⟩
    return .invalid
  | .join => return .string (join (← Run.array r) (textAt args 0))
  | .isEmpty => return .boolean (← Run.array r).isEmpty
  | .getEntry =>
    match args.head?.bind Value.toInt64? with
    | some index => return (← Run.array r).get index
    | none => return .invalid
  | .setEntry =>
    match args.head?.bind Value.toInt64?, args[1]? with
    | some index, some v =>
      match ArrayObject.place index with
      | .ok place => Run.modifyArray r (·.put place v)
      | .error f => Run.faultHere f
      return .invalid
    | _, _ => return .invalid
  | .reverse =>
    Run.modifyArray r fun a => ⟨a.elements.reverse⟩
    return .invalid

def newItems : List Entry → Run (List Value)
  | [] => pure []
  | e :: rest => do
    let item ← Run.newAssoc (.ofMembers [("key", .string e.shown), ("value", e.value)])
    let items ← newItems rest
    return item :: items

def assocMethod (m : AssocMethod) (r : AssocRef) (args : List Value) : Run Value := do
  let key := textAt args 0
  match m with
  | .count => return int32 (← Run.assoc r).size
  | .addReplace =>
    Run.modifyAssoc r (·.set key (args.getD 1 .invalid) true)
    return .invalid
  | .lookup => return ((← Run.assoc r).get? key).getD .invalid
  | .doesExist => return .boolean ((← Run.assoc r).contains key)
  | .delete =>
    let found := (← Run.assoc r).contains key
    Run.modifyAssoc r (·.erase key)
    return .boolean found
  | .clear =>
    Run.modifyAssoc r fun _ => .empty
    return .invalid
  | .keys => Run.newArray (.ofList ((← Run.assoc r).keys.map .string))
  | .items => Run.newArray (.ofList (← newItems (← Run.assoc r).toList))
  | .isEmpty => return .boolean (← Run.assoc r).isEmpty
  | .append =>
    if let some (.assoc other) := args.head? then
      let more ← Run.assoc other
      Run.modifyAssoc r (·.append more.toList)
    return .invalid

/-- The object a class makes: an empty collection, or a box with the zero of its kind. Boxed
functions cannot be made. -/
def create? (className : String) : Option (Run Value) :=
  match Component.ofName? className with
  | some .array => some (Run.newArray default)
  | some .assocArray => some (Run.newAssoc .empty)
  | some .string => some (pure (.boxed (.string "")))
  | some (.wrapper w) =>
    match w with
    | .int => some (pure (.boxed (.integer 0)))
    | .longInteger => some (pure (.boxed (.longInteger 0)))
    | .float => some (pure (.boxed (.float 0)))
    | .double => some (pure (.boxed (.double 0)))
    | .boolean => some (pure (.boxed (.boolean false)))
    | .invalid => some (pure (.boxed .invalid))
    | .function => none
  | none => none

end BrightScript.Library
