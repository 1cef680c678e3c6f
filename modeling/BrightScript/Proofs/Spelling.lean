import BrightScript.Proofs.DesignatedNames

/-!
# Spelling of names

The names that a script can spell in any case of letters are those of variables, of the targets that
are assigned to, of labels, and of members after a dot. A `Spelling` changes nothing but the case of
letters, and `spelled` applies it to all those names and leaves the rest of a script alone: names of
functions and parameters are shown in messages and backtraces, and members of a literal keep the
spelling in which they are listed. A reserved name that is assigned or dimensioned is also left
alone, because the error about it shows it.

Functions are values, so that a spelling goes on through values, collections, bindings and errors to
whole sessions. What the rules do with values commutes with it.
-/

namespace BrightScript

/-! ## Spellings -/

/-- A way to spell names that changes at most the case of their letters. -/
structure Spelling where
  spell : String → String
  fold_spell : ∀ name, Text.fold (spell name) = Text.fold name

def Spelling.small : Spelling :=
  ⟨Text.fold, Text.fold_fold⟩

def Spelling.asWritten : Spelling :=
  ⟨id, fun _ => rfl⟩

theorem Spelling.designator?_spell (sp : Spelling) (name : String) :
    Text.designator? (sp.spell name) = Text.designator? name := by
  rw [← Text.designator?_fold, sp.fold_spell, Text.designator?_fold]

/-! ## Scripts -/

def Identifier.spelled (sp : Spelling) (i : Identifier) : Identifier :=
  { i with name := sp.spell i.name }

/-- The name spelled anew as a target, unless it is reserved. -/
def Identifier.spelledTarget (sp : Spelling) (i : Identifier) : Identifier :=
  if i.isReserved then i else i.spelled sp

mutual

def Expr.spelled (sp : Spelling) : Expr → Expr
  | .binary left op right location => .binary (left.spelled sp) op (right.spelled sp) location
  | .call callee args optional closing location =>
    .call (callee.spelled sp) (Expr.spelledAll sp args) optional closing location
  | .procedure body => .procedure (body.spelled sp)
  | .dottedGet object name optional location =>
    .dottedGet (object.spelled sp) (name.spelled sp) optional location
  | .attributeGet object name location => .attributeGet (object.spelled sp) name location
  | .indexedGet object indexes optional closing location =>
    .indexedGet (object.spelled sp) (Expr.spelledAll sp indexes) optional closing location
  | .grouping inner location => .grouping (inner.spelled sp) location
  | .literal value location => .literal value location
  | .arrayLiteral elements location => .arrayLiteral (Expr.spelledAll sp elements) location
  | .assocLiteral members location => .assocLiteral (Member.spelledAll sp members) location
  | .unary op operand location => .unary op (operand.spelled sp) location
  | .reference name => .reference (name.spelled sp)

def Expr.spelledAll (sp : Spelling) : List Expr → List Expr
  | [] => []
  | e :: rest => e.spelled sp :: Expr.spelledAll sp rest

def Expr.spelledOption (sp : Spelling) : Option Expr → Option Expr
  | none => none
  | some e => some (e.spelled sp)

def Member.spelledAll (sp : Spelling) : List Member → List Member
  | [] => []
  | ⟨name, value⟩ :: rest => ⟨name, value.spelled sp⟩ :: Member.spelledAll sp rest

def Parameter.spelledAll (sp : Spelling) : List Parameter → List Parameter
  | [] => []
  | ⟨name, kind, default?⟩ :: rest =>
    ⟨name, kind, Expr.spelledOption sp default?⟩ :: Parameter.spelledAll sp rest

def Procedure.spelled (sp : Spelling) : Procedure → Procedure
  | ⟨name, parameters, returns, isSub, body, location⟩ =>
    ⟨name, Parameter.spelledAll sp parameters, returns, isSub, body.spelled sp, location⟩

def Block.spelled (sp : Spelling) : Block → Block
  | ⟨statements, location⟩ => ⟨Statement.spelledAll sp statements, location⟩

def Block.spelledOption (sp : Spelling) : Option Block → Option Block
  | none => none
  | some block => some (block.spelled sp)

def Clause.spelledAll (sp : Spelling) : List Clause → List Clause
  | [] => []
  | ⟨condition, block⟩ :: rest =>
    ⟨condition.spelled sp, block.spelled sp⟩ :: Clause.spelledAll sp rest

def PrintItem.spelled (sp : Spelling) : PrintItem → PrintItem
  | .expression value => .expression (value.spelled sp)
  | .comma => .comma
  | .semicolon => .semicolon

def PrintItem.spelledAll (sp : Spelling) : List PrintItem → List PrintItem
  | [] => []
  | item :: rest => item.spelled sp :: PrintItem.spelledAll sp rest

def Statement.spelled (sp : Spelling) : Statement → Statement
  | .assignment name value location =>
    .assignment (name.spelledTarget sp) (value.spelled sp) location
  | .dim name dimensions location =>
    .dim (name.spelledTarget sp) (Expr.spelledAll sp dimensions) location
  | .block body => .block (body.spelled sp)
  | .expression value => .expression (value.spelled sp)
  | .exitFor location => .exitFor location
  | .exitWhile location => .exitWhile location
  | .continueFor location => .continueFor location
  | .continueWhile location => .continueWhile location
  | .declaration name body => .declaration name (body.spelled sp)
  | .conditional condition thenBranch elseIfs elseBranch location =>
    .conditional (condition.spelled sp) (thenBranch.spelled sp) (Clause.spelledAll sp elseIfs)
      (Block.spelledOption sp elseBranch) location
  | .increment target op location => .increment (target.spelled sp) op location
  | .print items location => .print (PrintItem.spelledAll sp items) location
  | .goto label location => .goto (label.spelled sp) location
  | .label name => .label (name.spelled sp)
  | .returning value location => .returning (Expr.spelledOption sp value) location
  | .ending location => .ending location
  | .stopping location => .stopping location
  | .forLoop counter start final step body location =>
    .forLoop (counter.spelled sp) (start.spelled sp) (final.spelled sp)
      (Expr.spelledOption sp step) (body.spelled sp) location
  | .forEach item target body location =>
    .forEach (item.spelled sp) (target.spelled sp) (body.spelled sp) location
  | .whileLoop condition body location =>
    .whileLoop (condition.spelled sp) (body.spelled sp) location
  | .dottedSet object name value location =>
    .dottedSet (object.spelled sp) (name.spelled sp) (value.spelled sp) location
  | .indexedSet object indexes value closing location =>
    .indexedSet (object.spelled sp) (Expr.spelledAll sp indexes) (value.spelled sp) closing location
  | .library path location => .library path location
  | .tryCatch tryBlock binding catchBlock location =>
    .tryCatch (tryBlock.spelled sp) (binding.spelled sp) (catchBlock.spelled sp) location
  | .throwing value location => .throwing (value.spelled sp) location

def Statement.spelledAll (sp : Spelling) : List Statement → List Statement
  | [] => []
  | statement :: rest => statement.spelled sp :: Statement.spelledAll sp rest

end

/-! ## Values and sessions -/

mutual

def Value.spelled (sp : Spelling) : Value → Value
  | .invalid => .invalid
  | .uninitialized => .uninitialized
  | .boolean b => .boolean b
  | .string s => .string s
  | .integer n => .integer n
  | .longInteger n => .longInteger n
  | .float x => .float x
  | .double x => .double x
  | .function c => .function (c.spelled sp)
  | .array r => .array r
  | .assoc r => .assoc r
  | .boxed content => .boxed (content.spelled sp)

def Callable.spelled (sp : Spelling) : Callable → Callable
  | ⟨identity, target, context⟩ => ⟨identity, target.spelled sp, context⟩

def Target.spelled (sp : Spelling) : Target → Target
  | .procedure body => .procedure (body.spelled sp)
  | .builtin b => .builtin b
  | .method m receiver => .method m (receiver.spelled sp)

end

def Argument.spelled (sp : Spelling) (a : Argument) : Argument :=
  { a with default? := Expr.spelledOption sp a.default? }

def Signature.spelled (sp : Spelling) (s : Signature) : Signature :=
  { s with arguments := s.arguments.map (Argument.spelled sp) }

def Frame.spelled (sp : Spelling) (f : Frame) : Frame :=
  { f with signature := f.signature.spelled sp }

/-- The error with names spelled anew in what it took along. -/
def ScriptError.spelled (sp : Spelling) (e : ScriptError) : ScriptError :=
  { e with
    backtrace := e.backtrace.map (List.map (Frame.spelled sp))
    extra := e.extra.map fun (key, v) => (key, v.spelled sp) }

def Signal.spelled (sp : Spelling) : Signal → Signal
  | .goto label location => .goto (sp.spell label) location
  | .returning value location => .returning (value.map (Value.spelled sp)) location
  | .error e => .error (e.spelled sp)
  | signal => signal

def Entry.spelled (sp : Spelling) (e : Entry) : Entry :=
  { e with value := e.value.spelled sp }

def AssocArray.spelled (sp : Spelling) (a : AssocArray) : AssocArray :=
  ⟨a.entries.map fun _ e => e.spelled sp, fun key e he => by
    rw [Std.ExtTreeMap.getElem?_map] at he
    obtain ⟨entry, hentry, rfl⟩ := Option.map_eq_some_iff.1 he
    exact a.keyed key entry hentry⟩

def ArrayObject.spelled (sp : Spelling) (a : ArrayObject) : ArrayObject :=
  ⟨a.elements.map (Value.spelled sp)⟩

/-- The heap with names spelled anew in the functions of its collections. -/
def Heap.spelled (sp : Spelling) (h : Heap) : Heap :=
  ⟨h.arrays.map (ArrayObject.spelled sp), h.assocs.map (AssocArray.spelled sp)⟩

def Bindings.spelled (sp : Spelling) (b : Bindings) : Bindings :=
  b.map fun _ v => v.spelled sp

def Activation.spelled (sp : Spelling) (a : Activation) : Activation :=
  { a with locals := Bindings.spelled sp a.locals }

def Scopes.spelled (sp : Spelling) (s : Scopes) : Scopes :=
  { s with
    globals := Bindings.spelled sp s.globals
    modules := Bindings.spelled sp s.modules
    active := s.active.spelled sp }

def Notice.spelled (sp : Spelling) (n : Notice) : Notice :=
  { n with error := n.error.spelled sp }

def ErrorLog.spelled (sp : Spelling) (log : ErrorLog) : ErrorLog :=
  { log with
    errors := log.errors.map (ScriptError.spelled sp)
    notices := log.notices.map (Notice.spelled sp) }

def Break.spelled (sp : Spelling) (b : Break) : Break :=
  { b with error := b.error.map (ScriptError.spelled sp) }

def BreakContext.spelled (sp : Spelling) (c : BreakContext) : BreakContext :=
  { c with
    locals := c.locals.map fun (name, v) => (name, v.spelled sp)
    error := c.error.map (ScriptError.spelled sp) }

def Debugger.spelled (sp : Spelling) : Debugger → Debugger
  | .scripted actions => .scripted actions
  | .console input output => .console input output
  | .host decide seen => .host decide (seen.map (BreakContext.spelled sp))

/-- The session with names spelled anew in all the functions it holds. -/
def Session.spelled (sp : Spelling) (s : Session) : Session :=
  { s with
    heap := s.heap.spelled sp
    scopes := s.scopes.spelled sp
    stack := s.stack.map (Frame.spelled sp)
    debugger := s.debugger.spelled sp
    breaks := s.breaks.map (Break.spelled sp)
    log := s.log.spelled sp }

/-! ## Names -/

variable {sp : Spelling}

namespace Identifier

@[simp] theorem fold_spelled (i : Identifier) : Text.fold (i.spelled sp).name = Text.fold i.name :=
  sp.fold_spell i.name

@[simp] theorem fold_spelledTarget (i : Identifier) :
    Text.fold (i.spelledTarget sp).name = Text.fold i.name := by
  unfold spelledTarget
  split <;> simp

@[simp] theorem isReserved_spelledTarget (i : Identifier) :
    (i.spelledTarget sp).isReserved = i.isReserved := by
  simp [isReserved]

@[simp] theorem location_spelledTarget (i : Identifier) :
    (i.spelledTarget sp).location = i.location := by
  unfold spelledTarget
  split <;> rfl

@[simp] theorem designator?_spelled (i : Identifier) : (i.spelled sp).designator? = i.designator? :=
  sp.designator?_spell i.name

@[simp] theorem designator?_spelledTarget (i : Identifier) :
    (i.spelledTarget sp).designator? = i.designator? := by
  unfold spelledTarget
  split <;> simp

end Identifier

/-! ## What is read of values -/

namespace Value

@[simp] theorem kind_spelled (v : Value) : (v.spelled sp).kind = v.kind := by
  cases v <;> rfl

@[simp] theorem unbox_spelled (v : Value) : (v.spelled sp).unbox = v.unbox.spelled sp := by
  cases v <;> rfl

@[simp] theorem isBoxable_spelled (v : Value) : (v.spelled sp).isBoxable = v.isBoxable := by
  cases v <;> rfl

@[simp] theorem box_spelled (v : Value) : (v.spelled sp).box = v.box.spelled sp := by
  cases v <;> rfl

@[simp] theorem component?_spelled (v : Value) : (v.spelled sp).component? = v.component? := by
  cases v with
  | boxed content => cases content <;> rfl
  | _ => rfl

@[simp] theorem typeName_spelled (v : Value) : (v.spelled sp).typeName = v.typeName := by
  simp [typeName]

@[simp] theorem isNumber_spelled (v : Value) : (v.spelled sp).isNumber = v.isNumber := by
  simp [isNumber]

@[simp] theorem isInvalid_spelled (v : Value) : (v.spelled sp).isInvalid = v.isInvalid := by
  cases v <;> rfl

@[simp] theorem isObject_spelled (v : Value) : (v.spelled sp).isObject = v.isObject := by
  cases v <;> rfl

@[simp] theorem isString_spelled (v : Value) : (v.spelled sp).isString = v.isString := by
  cases v <;> rfl

@[simp] theorem isBoolean_spelled (v : Value) : (v.spelled sp).isBoolean = v.isBoolean := by
  cases v <;> rfl

@[simp] theorem isCollection_spelled (v : Value) :
    (v.spelled sp).isCollection = v.isCollection := by
  cases v <;> rfl

@[simp] theorem isComparable_spelled (v : Value) :
    (v.spelled sp).isComparable = v.isComparable := by
  cases v <;> rfl

@[simp] theorem content?_spelled (v : Value) :
    (v.spelled sp).content? = v.content?.map (spelled sp) := by
  cases v <;> rfl

@[simp] theorem isUnboxable_spelled (v : Value) : (v.spelled sp).isUnboxable = v.isUnboxable := by
  simp [isUnboxable]

@[simp] theorem isNumberComparable_spelled (v : Value) :
    (v.spelled sp).isNumberComparable = v.isNumberComparable := by
  cases v with
  | boxed content => cases content <;> rfl
  | _ => rfl

@[simp] theorem toBool_spelled : ∀ v : Value, (v.spelled sp).toBool = v.toBool
  | boxed content => toBool_spelled content
  | invalid | uninitialized | boolean _ | string _ | integer _ | longInteger _ | float _ | double _
  | function _ | array _ | assoc _ => rfl

@[simp] theorem toFloat?_spelled : ∀ v : Value, (v.spelled sp).toFloat? = v.toFloat?
  | boxed content => toFloat?_spelled content
  | invalid | uninitialized | boolean _ | string _ | integer _ | longInteger _ | float _ | double _
  | function _ | array _ | assoc _ => rfl

@[simp] theorem toInt64?_spelled : ∀ v : Value, (v.spelled sp).toInt64? = v.toInt64?
  | boxed content => toInt64?_spelled content
  | invalid | uninitialized | boolean _ | string _ | integer _ | longInteger _ | float _ | double _
  | function _ | array _ | assoc _ => rfl

@[simp] theorem isPositive_spelled : ∀ v : Value, (v.spelled sp).isPositive = v.isPositive
  | boxed content => isPositive_spelled content
  | invalid | uninitialized | boolean _ | string _ | integer _ | longInteger _ | float _ | double _
  | function _ | array _ | assoc _ => rfl

@[simp] theorem isNonNegative_spelled : ∀ v : Value, (v.spelled sp).isNonNegative = v.isNonNegative
  | boxed content => isNonNegative_spelled content
  | invalid | uninitialized | boolean _ | string _ | integer _ | longInteger _ | float _ | double _
  | function _ | array _ | assoc _ => rfl

@[simp] theorem equals_spelled (a b : Value) :
    (a.spelled sp).equals (b.spelled sp) = a.equals b := by
  cases a with
  | function c =>
    cases b with
    | function d =>
      cases c
      cases d
      rfl
    | _ => rfl
  | _ => cases b <;> rfl

@[simp] theorem lessThan_spelled (a b : Value) :
    (a.spelled sp).lessThan (b.spelled sp) = a.lessThan b := by
  cases a <;> cases b <;> rfl

@[simp] theorem greaterThan_spelled (a b : Value) :
    (a.spelled sp).greaterThan (b.spelled sp) = a.greaterThan b :=
  lessThan_spelled b a

@[simp] theorem nestedText_spelled : ∀ v : Value, (v.spelled sp).nestedText = v.nestedText
  | boxed content => nestedText_spelled content
  | function ⟨_, .procedure ⟨_, _, _, _, _, _⟩, _⟩ => rfl
  | function ⟨_, .builtin _, _⟩ => rfl
  | function ⟨_, .method _ _, _⟩ => rfl
  | invalid | uninitialized | boolean _ | string _ | integer _ | longInteger _ | float _ | double _
  | array _ | assoc _ => rfl

theorem spelled_of_isPlain {v : Value} (h : v.isPlain = true) : (v.spelled sp) = v := by
  cases v <;> first | rfl | cases h

theorem convert?_spelled (v : Value) (kind : Kind) :
    (v.spelled sp).convert? kind = (v.convert? kind).map (spelled sp) := by
  cases v <;> cases kind <;> rfl

theorem coerce?_spelled (v : Value) (target : Kind) :
    (v.spelled sp).coerce? target = (v.coerce? target).map (spelled sp) := by
  have hnumber (v : Value) :
      (if (v.spelled sp).isNumber && target.isNumeric then (v.spelled sp).convert? target
        else none) =
        (if v.isNumber && target.isNumeric then v.convert? target else none).map (spelled sp) := by
    rw [isNumber_spelled, convert?_spelled]
    split <;> rfl
  -- only a box takes the rule to another value, its content
  unfold Value.coerce?
  rw [kind_spelled, isBoxable_spelled, isObject_spelled]
  split
  · rfl
  split
  · split <;> rfl
  · split <;> rfl
  cases v with
  | boxed content => exact coerce?_spelled content target
  | _ => exact hnumber _

theorem coerceForDesignator?_spelled (v : Value) (target : Kind) :
    (v.spelled sp).coerceForDesignator? target =
      (v.coerceForDesignator? target).map (spelled sp) := by
  unfold coerceForDesignator?
  rw [unbox_spelled, kind_spelled]
  split
  · rfl
  split
  · rfl
  cases v.unbox <;> cases target <;> rfl

theorem ofValue?_spelled (v : Value) : Number.ofValue? (v.spelled sp) = Number.ofValue? v := by
  unfold Number.ofValue?
  rw [unbox_spelled]
  cases v.unbox <;> rfl

theorem arithmetic_spelled (op : BinaryOp) (a b : Value) :
    (a.spelled sp).arithmetic op (b.spelled sp) = a.arithmetic op b := by
  rw [arithmetic, ofValue?_spelled, ofValue?_spelled, arithmetic]

theorem complement?_spelled (v : Value) : (v.spelled sp).complement? = v.complement? := by
  rw [complement?, ofValue?_spelled, complement?]

end Value

/-! ## Functions and their signatures -/

@[simp] theorem Expr.isSome_spelledOption (e : Option Expr) :
    (Expr.spelledOption sp e).isSome = e.isSome := by
  cases e <;> rfl

@[simp] theorem Expr.isNone_spelledOption (e : Option Expr) :
    (Expr.spelledOption sp e).isNone = e.isNone := by
  cases e <;> rfl

@[simp] theorem Expr.location_spelled (e : Expr) : (e.spelled sp).location = e.location := by
  cases e with
  | procedure body =>
    cases body
    rfl
  | _ => rfl

@[simp] theorem Statement.location_spelled (s : Statement) :
    (s.spelled sp).location = s.location := by
  cases s with
  | expression value => exact value.location_spelled
  | block body =>
    cases body
    rfl
  | declaration name body =>
    cases body
    rfl
  | _ => rfl

@[simp] theorem Statement.describe_spelled (s : Statement) :
    (s.spelled sp).describe = s.describe := by
  cases s <;> rfl

namespace Procedure

@[simp] theorem name_spelled (p : Procedure) : (p.spelled sp).name = p.name := by
  cases p
  rfl

@[simp] theorem location_spelled (p : Procedure) : (p.spelled sp).location = p.location := by
  cases p
  rfl

@[simp] theorem parameters_spelled (p : Procedure) :
    (p.spelled sp).parameters = Parameter.spelledAll sp p.parameters := by
  cases p
  rfl

theorem signature_spelled (p : Procedure) : (p.spelled sp).signature = p.signature.spelled sp := by
  have hparameters (ps : List Parameter) : (Parameter.spelledAll sp ps).map Parameter.argument =
      (ps.map Parameter.argument).map (Argument.spelled sp) := by
    induction ps with
    | nil => rfl
    | cons p ps ih =>
      cases p
      exact congrArg (_ :: ·) ih
  cases p
  exact congrArg (Signature.of · _) (hparameters _)

end Procedure

namespace Signature

@[simp] theorem requiredCount_spelled (s : Signature) :
    (s.spelled sp).requiredCount = s.requiredCount := by
  simp [requiredCount, spelled, List.filter_map, Function.comp_def, Argument.spelled]

theorem coerceAll_spelled (ps : List Argument) (vs : List Value) :
    coerceAll (ps.map (Argument.spelled sp)) (vs.map (Value.spelled sp)) =
      ((coerceAll ps vs).1, (coerceAll ps vs).2.map (Value.spelled sp)) := by
  induction ps generalizing vs with
  | nil => rfl
  | cons p ps ih =>
    cases vs with
    | nil => rfl
    | cons v vs =>
      have hkind : (p.spelled sp).kind = p.kind := rfl
      simp only [List.map_cons, coerceAll, ih vs, hkind, Value.coerce?_spelled]
      cases v.coerce? p.kind with
      | none => rw [Value.kind_spelled]; rfl
      | some w => rfl

theorem mismatches_spelled (s : Signature) (args : List Value) :
    (s.spelled sp).mismatches (args.map (Value.spelled sp)) = s.mismatches args := by
  have hcount : (s.spelled sp).countMismatch args.length = s.countMismatch args.length := by
    simp only [countMismatch, requiredCount_spelled]
    simp [spelled]
  have hcoerced : coerceAll (s.spelled sp).arguments (args.map (Value.spelled sp)) = _ :=
    coerceAll_spelled s.arguments args
  rw [mismatches, mismatches, List.length_map, hcount]
  exact congrArg (fun r => s.countMismatch args.length ++ r.1) hcoerced

theorem satisfy?_spelled (s : Signature) (args : List Value) :
    (s.spelled sp).satisfy? (args.map (Value.spelled sp)) =
      (s.satisfy? args).map (List.map (Value.spelled sp)) := by
  have hcoerced : coerceAll (s.spelled sp).arguments (args.map (Value.spelled sp)) = _ :=
    coerceAll_spelled s.arguments args
  rw [satisfy?, satisfy?, mismatches_spelled, hcoerced]
  split <;> rfl

theorem mismatchReport_spelled (s : Signature) (name : String) (args : List Value) :
    (s.spelled sp).mismatchReport name (args.map (Value.spelled sp)) =
      s.mismatchReport name args := by
  have hargument (a : Argument) : argumentText (a.spelled sp) = argumentText a := by
    have hdefault : (a.spelled sp).default?.isSome = a.default?.isSome :=
      Expr.isSome_spelledOption _
    rw [argumentText, hdefault]
    rfl
  have harguments : (s.spelled sp).arguments.map argumentText = s.arguments.map argumentText := by
    rw [spelled, List.map_map]
    exact List.map_congr_left fun a _ => hargument a
  have hheadline : (s.spelled sp).headline name = s.headline name :=
    congrArg (fun list => s!"function {name}({list}) as {s.returns.name}:")
      (congrArg (String.intercalate ", ") harguments)
  have hmismatch (m : Mismatch) : (s.spelled sp).mismatchText name m = s.mismatchText name m := by
    cases m with
    | tooFew received =>
      exact congrArg
        (fun n => s!"* {name} requires at least {n} argument(s), but received {received}.")
        s.requiredCount_spelled
    | _ => rfl
  simp only [mismatchReport, mismatches_spelled, hheadline, hmismatch]

end Signature

def Satisfied.spelled (sp : Spelling) (f : Satisfied) : Satisfied :=
  ⟨f.index, f.signature.spelled sp, f.args.map (Value.spelled sp)⟩

theorem firstSatisfied_spelled (args : List Value) (index : Nat) (overloads : List Signature) :
    firstSatisfied (args.map (Value.spelled sp)) index (overloads.map (Signature.spelled sp)) =
      (firstSatisfied args index overloads).map (Satisfied.spelled sp) := by
  induction overloads generalizing index with
  | nil => rfl
  | cons s rest ih =>
    simp only [List.map_cons, firstSatisfied, Signature.satisfy?_spelled]
    cases s.satisfy? args with
    | none => exact ih (index + 1)
    | some coerced => rfl

theorem ScriptError.noOverload_spelled (name : String) (overloads : List Signature)
    (args : List Value) (location : Location) :
    ScriptError.noOverload name (overloads.map (Signature.spelled sp)) (args.map (Value.spelled sp))
        location =
      ScriptError.noOverload name overloads args location := by
  simp only [noOverload, List.length_map, List.map_map, Function.comp_def,
    Signature.mismatchReport_spelled]

namespace Target

@[simp] theorem name_spelled (t : Target) : (t.spelled sp).name = t.name := by
  cases t with
  | procedure body => exact body.name_spelled
  | _ => rfl

@[simp] theorem location?_spelled (t : Target) : (t.spelled sp).location? = t.location? := by
  cases t with
  | procedure body => exact congrArg some body.location_spelled
  | _ => rfl

/-- The signatures of the library have no names to fold. -/
theorem overloads_spelled (t : Target) :
    (t.spelled sp).overloads = t.overloads.map (Signature.spelled sp) := by
  cases t with
  | procedure body => exact congrArg (· :: []) body.signature_spelled
  | builtin b => cases b <;> rfl
  | method m receiver =>
    cases m with
    | array m => cases m <;> rfl
    | assoc m => cases m <;> rfl
    | string m => cases m <;> rfl
    | text | content => rfl

end Target

namespace Callable

@[simp] theorem target_spelled (c : Callable) : (c.spelled sp).target = c.target.spelled sp := by
  cases c
  rfl

@[simp] theorem context_spelled (c : Callable) : (c.spelled sp).context = c.context := by
  cases c
  rfl

@[simp] theorem name_spelled (c : Callable) : (c.spelled sp).name = c.name := by
  simp [name]

theorem overloads_spelled (c : Callable) :
    (c.spelled sp).overloads = c.overloads.map (Signature.spelled sp) := by
  rw [overloads, target_spelled, Target.overloads_spelled, overloads]

theorem takesArguments_spelled (c : Callable) :
    (c.spelled sp).takesArguments = c.takesArguments := by
  rw [takesArguments, overloads_spelled, takesArguments]
  cases c.overloads with
  | nil => rfl
  | cons s rest => simp [Signature.spelled]

end Callable

theorem Component.method?_spell (c : Component) (name : String) :
    c.method? (sp.spell name) = c.method? name := by
  simp only [method?, Text.sameWord, Spelling.fold_spell]

theorem Value.method?_spelled (v : Value) (name : String) :
    (v.spelled sp).method? name = (v.method? name).map (Callable.spelled sp) := by
  rw [method?, box_spelled, component?_spelled, method?]
  cases v.box.component? with
  | none => rfl
  | some c =>
    dsimp only
    rw [Option.map_map]
    rfl

theorem Value.method?_spell (v : Value) (name : String) :
    v.method? (sp.spell name) = v.method? name := by
  simp only [method?, Component.method?_spell]

theorem Value.readFrom_spelled (v : Value) (source : AssocRef) :
    (v.spelled sp).readFrom source = (v.readFrom source).spelled sp := by
  cases v with
  | function c =>
    cases c
    rfl
  | _ => rfl

end BrightScript
