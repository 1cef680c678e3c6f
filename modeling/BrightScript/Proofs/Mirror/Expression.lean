import BrightScript.Proofs.Mirror.Library

/-!
# Expressions in mirrors

An expression with names spelled anew follows the expression: operators, members, indexes and calls.
-/

namespace BrightScript

/-! ## Operands -/

def Evaluated.spelled (sp : Spelling) (e : Evaluated) : Evaluated :=
  { e with value := e.value.spelled sp }

namespace Run

variable {sp : Spelling}

theorem isShiftAmount_spelled (v : Value) : isShiftAmount (v.spelled sp) = isShiftAmount v := by
  simp only [isShiftAmount, Value.toFloat?_spelled]

theorem isEquatable_spelled (v : Value) : isEquatable (v.spelled sp) = isEquatable v := by
  simp only [isEquatable, Value.kind_spelled, Value.isUnboxable_spelled,
    Value.isComparable_spelled]

theorem ordering_spelled (op : BinaryOp) (a b : Value) :
    ordering op (a.spelled sp) (b.spelled sp) = ordering op a b := by
  simp only [ordering, Value.lessThan_spelled, Value.greaterThan_spelled, Value.equals_spelled]

theorem settles_spelled (op : BinaryOp) (v : Value) : settles op (v.spelled sp) = settles op v := by
  cases v <;> rfl

theorem unary?_spelled (op : UnaryOp) (v : Value) :
    unary? op (v.spelled sp) = (unary? op v).map (Value.spelled sp) := by
  have hplain {w : Option Value} (h : ∀ u, w = some u → u.isPlain = true) :
      w = w.map (Value.spelled sp) := by
    cases w with
    | none => rfl
    | some u => exact congrArg some (Value.spelled_of_isPlain (h u rfl)).symm
  cases op with
  | plus => rfl
  | negate =>
    have hproduct : (v.spelled sp).arithmetic .multiply (.integer (-1)) =
        v.arithmetic .multiply (.integer (-1)) := Value.arithmetic_spelled _ v (.integer (-1))
    simp only [unary?, Value.isNumber_spelled, hproduct]
    refine hplain fun u hu => ?_
    split at hu
    · cases hw : v.arithmetic .multiply (.integer (-1)) with
      | error e =>
        rw [hw] at hu
        cases hu
      | ok w =>
        rw [hw] at hu
        cases hu
        exact Value.isPlain_arithmetic hw
    · cases hu
  | not =>
    have hcomplement : (v.spelled sp).complement? = v.complement?.map (Value.spelled sp) := by
      rw [Value.complement?_spelled]
      exact hplain fun u hu => Value.isPlain_complement? hu
    cases v with
    | boolean b => rfl
    | _ => exact hcomplement

end Run

namespace Mirror

variable (k : Mirror) {α β : Type}

/-! ## Operators -/

theorem operatorMismatch (image : α → β) (op : BinaryOp) (left right : Evaluated) :
    k.Follows image (Run.operatorMismatch op left right)
      (Run.operatorMismatch op (left.spelled k.sp) (right.spelled k.sp)) := by
  have hoperand (e : Evaluated) : (e.spelled k.sp).operand = e.operand :=
    congrArg (Operand.mk · e.location) e.value.kind_spelled
  unfold Run.operatorMismatch
  rw [hoperand, hoperand]
  exact k.error image rfl rfl

theorem arithmetic (op : BinaryOp) (left right : Evaluated) (location : Location) :
    k.Gives (Run.arithmetic op left right location)
      (Run.arithmetic op (left.spelled k.sp) (right.spelled k.sp) location) := by
  have hresult : (left.spelled k.sp).value.arithmetic op (right.spelled k.sp).value =
      left.value.arithmetic op right.value := Value.arithmetic_spelled op _ _
  unfold Run.arithmetic
  rw [hresult]
  split
  · next v hv => exact k.plain (Value.isPlain_arithmetic hv)
  · exact k.fault _ _ _
  · exact k.operatorMismatch _ op left right

theorem operate (op : BinaryOp) (left right : Evaluated) (location : Location) :
    k.Gives (Run.operate op left right location)
      (Run.operate op (left.spelled k.sp) (right.spelled k.sp) location) := by
  have mismatch := k.operatorMismatch (Value.spelled k.sp) op left right
  have hleft : (left.spelled k.sp).value = left.value.spelled k.sp := rfl
  have hright : (right.spelled k.sp).value = right.value.spelled k.sp := rfl
  have hlocation : (right.spelled k.sp).location = right.location := rfl
  have numeric : k.Gives
      (if left.value.isNumber && right.value.isNumber then Run.arithmetic op left right location
        else Run.operatorMismatch op left right)
      (if left.value.isNumber && right.value.isNumber then
        Run.arithmetic op (left.spelled k.sp) (right.spelled k.sp) location
        else Run.operatorMismatch op (left.spelled k.sp) (right.spelled k.sp)) := by
    split
    · exact k.arithmetic op left right location
    · exact mismatch
  unfold Run.operate
  simp only [hleft, hright, hlocation, Value.isNumber_spelled, Run.isShiftAmount_spelled,
    Value.isString_spelled, Run.ordering_spelled, Value.isInvalid_spelled,
    Run.isEquatable_spelled, Value.equals_spelled]
  cases op with
  | leftShift | rightShift =>
    dsimp only
    split
    · exact mismatch
    · split
      · exact k.fault _ _ _
      · exact k.arithmetic _ left right location
  | subtract | multiply | divide | intDivide | modulo | power => exact numeric
  | add =>
    cases ha : left.value with
    | string x =>
      cases hb : right.value with
      | string y => exact k.plain rfl
      | _ =>
        rw [ha, hb] at numeric
        exact numeric
    | _ =>
      rw [ha] at numeric
      exact numeric
  | less | lessEqual | greater | greaterEqual =>
    dsimp only
    split
    · exact k.plain rfl
    · exact mismatch
  | equal | notEqual =>
    dsimp only
    split
    · exact k.plain rfl
    · exact mismatch
  | and | or => exact mismatch

theorem combine (op : BinaryOp) (left right : Evaluated) (location : Location) :
    k.Gives (Run.combine op left right location)
      (Run.combine op (left.spelled k.sp) (right.spelled k.sp) location) := by
  have mismatch := k.operatorMismatch (Value.spelled k.sp) op left right
  have hleft : (left.spelled k.sp).value = left.value.spelled k.sp := rfl
  have hright : (right.spelled k.sp).value = right.value.spelled k.sp := rfl
  have htruth (v : Value) : k.Gives
      (if v.isNumber then pure (.boolean v.toBool) else Run.operatorMismatch op left right)
      (if (v.spelled k.sp).isNumber then pure (.boolean (v.spelled k.sp).toBool)
        else Run.operatorMismatch op (left.spelled k.sp) (right.spelled k.sp)) := by
    rw [Value.isNumber_spelled, Value.toBool_spelled]
    split
    · exact k.plain rfl
    · exact mismatch
  have hbits (v : Value) (b : Bool) : k.Gives
      (if v.isNumber then
        pure (.boolean (if op = .and then v.toBool && b else v.toBool || b))
        else Run.operatorMismatch op left right)
      (if (v.spelled k.sp).isNumber then
        pure (.boolean (if op = .and then (v.spelled k.sp).toBool && b
          else (v.spelled k.sp).toBool || b))
        else Run.operatorMismatch op (left.spelled k.sp) (right.spelled k.sp)) := by
    rw [Value.isNumber_spelled, Value.toBool_spelled]
    split
    · exact k.plain rfl
    · exact mismatch
  have hnumbers (v w : Value) : k.Gives
      (if v.isNumber && w.isNumber then Run.arithmetic op left right location
        else Run.operatorMismatch op left right)
      (if (v.spelled k.sp).isNumber && (w.spelled k.sp).isNumber then
        Run.arithmetic op (left.spelled k.sp) (right.spelled k.sp) location
        else Run.operatorMismatch op (left.spelled k.sp) (right.spelled k.sp)) := by
    rw [Value.isNumber_spelled, Value.isNumber_spelled]
    split
    · exact k.arithmetic op left right location
    · exact mismatch
  unfold Run.combine
  rw [hleft, hright]
  cases left.value with
  | boolean a =>
    cases right.value with
    | boolean b => exact k.plain rfl
    | _ => exact htruth _
  | _ =>
    cases right.value with
    | boolean b => exact hbits _ b
    | _ => exact hnumbers _ _

/-! ## Members -/

theorem member (source : Value) (name name' : String)
    (hname : ∀ heap : Heap, heap.member? source name' = heap.member? source name) :
    k.Follows (Option.map (Value.spelled k.sp))
      (Routine.view fun s => s.heap.member? source name)
      (Routine.view fun s => s.heap.member? (source.spelled k.sp) name') :=
  k.view fun s => (s.heap.member?_spelled source name').trans
    (congrArg (Option.map (Value.spelled k.sp)) (hname s.heap))

theorem methodOf (source : Value) (name : Identifier) :
    k.Gives (Run.methodOf source name)
      (Run.methodOf (source.spelled k.sp) (name.spelled k.sp)) := by
  have hmethod : (source.spelled k.sp).method? (name.spelled k.sp).name =
      (source.method? name.name).map (Callable.spelled k.sp) := by
    rw [Value.method?_spelled]
    exact congrArg _ (source.method?_spell name.name)
  unfold Run.methodOf
  rw [hmethod, Value.isCollection_spelled]
  cases source.method? name.name with
  | some c => exact k.ret _ (Value.function c)
  | none =>
    dsimp only [Option.map_none]
    split
    · exact k.plain rfl
    · cases source with
      | _ => exact k.fault _ _ _

theorem dottedGet (source : Value) (name : Identifier) (optional : Bool) :
    k.Gives (Run.dottedGet source name optional)
      (Run.dottedGet (source.spelled k.sp) (name.spelled k.sp) optional) := by
  refine k.bind (k.member source name.name _ fun heap => heap.member?_spell source name.name)
    fun found => ?_
  cases found with
  | some v => exact k.ret _ v
  | none =>
    dsimp only [Option.map_none]
    rw [Value.isInvalid_spelled]
    split
    · exact k.plain rfl
    · exact k.methodOf source name

theorem attributeGet (source : Value) (name : Identifier) :
    k.Gives (Run.attributeGet source name) (Run.attributeGet (source.spelled k.sp) name) := by
  unfold Run.attributeGet
  rw [Value.isInvalid_spelled]
  split <;> exact k.fault _ _ _

/-! ## Nested operands -/

section Nested

variable {ev ev' : Evaluator} (h : k.Related ev ev')
include h

theorem evaluateAll (es : List Expr) :
    k.Follows (List.map (Value.spelled k.sp)) (ev.evaluateAll es)
      (ev'.evaluateAll (Expr.spelledAll k.sp es)) := by
  induction es with
  | nil => exact k.ret _ []
  | cons e rest ih =>
    refine k.bind (h.evaluate e) fun v => ?_
    exact k.bind ih fun vs => k.ret _ (v :: vs)

theorem operand (e : Expr) :
    k.Follows (Evaluated.spelled k.sp) (ev.operand e) (ev'.operand (e.spelled k.sp)) := by
  refine k.bind (h.evaluate e) fun v => ?_
  rw [Value.unbox_spelled, Expr.location_spelled]
  exact k.ret _ (Evaluated.mk v.unbox e.location)

theorem logical (op : BinaryOp) (left : Evaluated) (right : Expr) (location : Location) :
    k.Gives (ev.logical op left right location)
      (ev'.logical op (left.spelled k.sp) (right.spelled k.sp) location) := by
  have hleft : (left.spelled k.sp).value = left.value.spelled k.sp := rfl
  unfold Evaluator.logical
  rw [hleft, Run.settles_spelled, Value.isBoolean_spelled, Value.isNumber_spelled,
    Expr.location_spelled]
  split
  · exact k.ret _ left.value
  · split
    · exact k.bind (k.operand h right) fun b => k.combine op left b location
    · exact k.operatorMismatch _ op left ⟨.invalid, right.location⟩

theorem binary (left : Expr) (op : BinaryOp) (right : Expr) (location : Location) :
    k.Gives (ev.binary left op right location)
      (ev'.binary (left.spelled k.sp) op (right.spelled k.sp) location) := by
  refine k.bind (k.operand h left) fun a => ?_
  split
  · exact k.logical h op a right location
  · exact k.bind (k.operand h right) fun b => k.operate op a b location

theorem unary (op : UnaryOp) (e : Expr) (location : Location) :
    k.Gives (ev.unary op e location) (ev'.unary op (e.spelled k.sp) location) := by
  refine k.bind (k.operand h e) fun a => ?_
  have hvalue : (a.spelled k.sp).value = a.value.spelled k.sp := rfl
  rw [hvalue, Run.unary?_spelled, Value.kind_spelled]
  cases Run.unary? op a.value with
  | some v => exact k.ret _ v
  | none => exact k.error _ rfl rfl

/-! ## Indexes -/

theorem arrayIndex (index : Expr) :
    k.Follows id (ev.arrayIndex index) (ev'.arrayIndex (index.spelled k.sp)) := by
  refine k.bind (h.evaluate index) fun v => ?_
  rw [Value.toInt64?_spelled, Expr.location_spelled]
  split
  · exact k.ret id _
  · exact k.fault _ _ _

theorem assocKey (indexes : List Expr) (closing : Location) :
    k.Follows id (ev.assocKey indexes closing)
      (ev'.assocKey (Expr.spelledAll k.sp indexes) closing) := by
  match indexes with
  | [] | _ :: _ :: _ => exact k.fault _ _ _
  | [index] =>
    refine k.bind (h.evaluate index) fun v => ?_
    rw [Value.unbox_spelled, Expr.location_spelled]
    cases v.unbox with
    | string key => exact k.ret id key
    | _ => exact k.error id rfl rfl

theorem follow (location : Location) (indexes : List Expr) (current : Value) :
    k.Gives (ev.follow location current indexes)
      (ev'.follow location (current.spelled k.sp) (Expr.spelledAll k.sp indexes)) := by
  induction indexes generalizing current with
  | nil => exact k.ret _ current
  | cons index rest ih =>
    refine k.bind (k.arrayIndex h index) fun n => ?_
    cases current with
    | array r =>
      refine k.bind (k.array r) fun a => ?_
      rw [ArrayObject.get_spelled]
      exact ih _
    | _ => exact k.fault _ _ _

theorem indexedGet (object : Expr) (indexes : List Expr) (optional : Bool)
    (closing location : Location) :
    k.Gives (ev.indexedGet object indexes optional closing location)
      (ev'.indexedGet (object.spelled k.sp) (Expr.spelledAll k.sp indexes) optional closing
        location) := by
  refine k.bind (h.evaluate object) fun source => ?_
  cases source with
  | assoc r =>
    refine k.bind (k.assocKey h indexes closing) fun key => ?_
    refine k.bind (k.member (.assoc r) key key fun _ => rfl) fun found => ?_
    cases found with
    | none => exact k.plain rfl
    | some v => exact k.ret _ v
  | array r => exact k.follow h location indexes (.array r)
  | invalid =>
    dsimp only [Value.spelled]
    split
    · exact k.plain rfl
    · exact k.fault _ _ _
  | _ => exact k.fault _ _ _

end Nested

theorem newFunction (body : Procedure) :
    k.Gives (Evaluator.newFunction body) (Evaluator.newFunction (body.spelled k.sp)) :=
  k.bind k.freshIdentity fun i => k.ret _ (Value.function ⟨i, .procedure body, none⟩)

/-! ## Calls -/

theorem returned (returns : Kind) (value? : Option Value) (location : Location) :
    k.Gives (Run.returned returns value? location)
      (Run.returned returns (value?.map (Value.spelled k.sp)) location) := by
  unfold Run.returned
  cases value? with
  | none =>
    dsimp only [Option.map_none]
    split
    · exact k.plain rfl
    · exact k.fault _ _ _
  | some v =>
    dsimp only [Option.map_some]
    rw [Value.coerce?_spelled, Value.kind_spelled]
    split
    · exact k.fault _ _ _
    · cases v.coerce? returns with
      | some w => exact k.ret _ w
      | none => exact k.error _ rfl rfl

theorem leaveCall (returns : Kind) (signal : Signal) :
    k.Gives (Run.leaveCall returns signal) (Run.leaveCall returns (signal.spelled k.sp)) := by
  have escapes := k.escape (Value.spelled k.sp) signal
  cases signal with
  | returning value? location => exact k.returned returns value? location
  | _ => exact escapes

theorem labelMissing (image : α → β) (location : Location) :
    k.Follows image (Run.labelMissing location) (Run.labelMissing location) := by
  refine k.bind (k.view fun s => List.map_tail.symm) fun callers => ?_
  exact k.raise image { ScriptError.ofFault .missingLineNumber location with
    backtrace := some callers }

section Calls

variable {ev ev' : Evaluator} (h : k.Related ev ev')
include h

theorem executeAll (statements : List Statement) :
    k.Follows id (ev.executeAll statements)
      (ev'.executeAll (Statement.spelledAll k.sp statements)) := by
  induction statements with
  | nil => exact k.ret id ()
  | cons s rest ih => exact k.bind (h.execute s) fun _ => ih

theorem executeBlock (b : Block) :
    k.Follows id (ev.executeBlock b) (ev'.executeBlock (b.spelled k.sp)) := by
  cases b
  exact k.executeAll h _

theorem defaultValue (name : Identifier) (kind : Kind) (default? : Option Expr) :
    k.Gives (ev.defaultValue ⟨name, kind, default?⟩)
      (ev'.defaultValue ⟨name, kind, Expr.spelledOption k.sp default?⟩) := by
  cases default? with
  | none => exact k.plain rfl
  | some e =>
    refine k.bind (h.evaluate e) fun v => ?_
    dsimp only
    rw [Value.coerce?_spelled]
    cases v.coerce? kind with
    | none => exact k.ret _ v
    | some w => exact k.ret _ w

theorem bindParameters (parameters : List Parameter) (args : List Value) :
    k.Follows id (ev.bindParameters parameters args)
      (ev'.bindParameters (Parameter.spelledAll k.sp parameters)
        (args.map (Value.spelled k.sp))) := by
  induction parameters generalizing args with
  | nil => exact k.ret id ()
  | cons p ps ih =>
    obtain ⟨name, kind, default?⟩ := p
    cases args with
    | nil =>
      refine k.bind (k.defaultValue h name kind default?) fun v => ?_
      exact k.bind (k.bindLocal rfl rfl v) fun _ => ih []
    | cons v vs => exact k.bind (k.bindLocal rfl rfl v) fun _ => ih vs

theorem runBody (body : Procedure) (last : Location) :
    k.Follows (Sum.map id id) (ev.runBody body last) (ev'.runBody (body.spelled k.sp) last) := by
  have hbody : (body.spelled k.sp).body = body.body.spelled k.sp := by
    cases body
    rfl
  unfold Evaluator.runBody
  rw [hbody]
  refine k.bind (k.attempt (k.executeBlock h body.body)) fun result => ?_
  cases result with
  | ok _ => exact k.ret _ (Sum.inr last)
  | error signal =>
    cases signal with
    | goto label location =>
      refine k.bind (k.modifyScopes fun s => ?_) fun _ => k.ret _ (Sum.inl location)
      rw [k.sp.fold_spell]
      rfl
    | _ => exact k.leave _ _

theorem runProcedure (budget : Nat) (body : Procedure) (args : List Value) :
    k.Gives (ev.runProcedure budget body args)
      (ev'.runProcedure budget (body.spelled k.sp) (args.map (Value.spelled k.sp))) := by
  unfold Evaluator.runProcedure
  rw [Procedure.parameters_spelled, Procedure.location_spelled]
  refine k.bind (k.bindParameters h body.parameters args) fun _ => ?_
  refine k.bind (k.iterate (k.runBody h body) budget body.location) fun last => ?_
  refine k.bind (k.look fun _ => rfl) fun pending => ?_
  dsimp only [id]
  split
  · exact k.labelMissing _ last
  · exact k.plain rfl

theorem invoke (budget : Nat) (target : Target) (args : List Value) :
    k.Gives (ev.invoke budget target args)
      (ev'.invoke budget (target.spelled k.sp) (args.map (Value.spelled k.sp))) := by
  cases target with
  | procedure body => exact k.runProcedure h budget body args
  | builtin b => exact k.builtin b args
  | method m receiver => exact k.method m receiver args

theorem callWith (budget : Nat) (c : Callable) (chosen : Satisfied) (context : Option AssocRef)
    (call : Location) :
    k.Gives
      (Run.calling (Evaluator.frameOf? c chosen.signature call) chosen.signature.returns context call
        (Routine.handle (ev.invoke budget c.target chosen.args) Run.crash))
      (Run.calling (Evaluator.frameOf? (c.spelled k.sp) (chosen.spelled k.sp).signature call)
        chosen.signature.returns context call
        (Routine.handle (ev'.invoke budget (c.target.spelled k.sp) (chosen.spelled k.sp).args)
          Run.crash)) := by
  have hframe : Evaluator.frameOf? (c.spelled k.sp) (chosen.spelled k.sp).signature call =
      (Evaluator.frameOf? c chosen.signature call).map (Frame.spelled k.sp) := by
    simp only [Evaluator.frameOf?, Callable.target_spelled, Target.location?_spelled,
      Callable.name_spelled, Option.map_map]
    rfl
  have hroot (s : Session) : (s.spelled k.sp).scopes.rootM = s.scopes.rootM := rfl
  intro s hs
  rw [hframe, Run.calling, Run.calling, Option.isSome_map, Session.isFull_spelled, hroot]
  split
  · exact k.fault _ _ _ s hs
  · refine k.handle (k.inCall (k.handle ?_ (k.crash _)) _ _) (k.leaveCall _) s hs
    exact k.invoke h budget c.target chosen.args

theorem call (budget : Nat) (c : Callable) (args : List Value) (context : Option AssocRef)
    (call closing : Location) :
    k.Gives (ev.call budget c args context call closing)
      (ev'.call budget (c.spelled k.sp) (args.map (Value.spelled k.sp)) context call closing) := by
  unfold Evaluator.call Run.call Run.dispatch
  rw [Callable.overloads_spelled, firstSatisfied_spelled, Callable.name_spelled,
    ScriptError.noOverload_spelled, Callable.target_spelled]
  cases firstSatisfied args 0 c.overloads with
  | some found => exact k.callWith h budget c found context call
  | none => exact k.error _ rfl rfl

theorem callExpression (budget : Nat) (callee : Expr) (args : List Expr) (optional : Bool)
    (closing : Location) :
    k.Gives (ev.callExpression (ev.invoke budget) callee args optional closing)
      (ev'.callExpression (ev'.invoke budget) (callee.spelled k.sp) (Expr.spelledAll k.sp args)
        optional closing) := by
  have hkeeps : Evaluator.keepsContext (callee.spelled k.sp) = Evaluator.keepsContext callee := by
    cases callee <;> rfl
  have called (c : Callable) (values : List Value) : k.Gives
      (ev.call budget c values (if Evaluator.keepsContext callee then c.context else none)
        callee.location closing)
      (ev'.call budget (c.spelled k.sp) (values.map (Value.spelled k.sp))
        (if Evaluator.keepsContext (callee.spelled k.sp) then (c.spelled k.sp).context else none)
        (callee.spelled k.sp).location closing) := by
    rw [hkeeps, Callable.context_spelled, Expr.location_spelled]
    exact k.call h budget c values _ _ closing
  refine k.bind (h.evaluate callee) fun f => ?_
  refine k.bind (k.evaluateAll h args) fun values => ?_
  cases f with
  | function c => exact called c values
  | boxed content =>
    cases content with
    | function c => exact called c values
    | _ => exact k.fault _ _ _
  | invalid =>
    dsimp only [Value.spelled]
    split
    · exact k.plain rfl
    · exact k.fault _ _ _
  | _ => exact k.fault _ _ _

theorem evaluateMembers (members : List Member) :
    k.Follows (List.map fun (key, v) => (key, v.spelled k.sp)) (ev.evaluateMembers members)
      (ev'.evaluateMembers (Member.spelledAll k.sp members)) := by
  induction members with
  | nil => exact k.ret _ []
  | cons member rest ih =>
    obtain ⟨name, value⟩ := member
    refine k.bind (h.evaluate value) fun v => ?_
    exact k.bind ih fun vs => k.ret _ ((name, v) :: vs)

theorem expression (budget : Nat) (e : Expr) :
    k.Gives (ev.expression budget e) (ev'.expression budget (e.spelled k.sp)) := by
  unfold Evaluator.expression
  rw [Expr.location_spelled]
  refine k.bind (k.moveTo e.location) fun _ => ?_
  cases e with
  | literal value location => exact k.plain (Value.isPlain_ofLiteral value)
  | grouping inner location => exact h.evaluate inner
  | reference name => exact k.lookup name
  | binary left op right location => exact k.binary h left op right location
  | unary op inner location => exact k.unary h op inner location
  | procedure body => exact k.newFunction body
  | arrayLiteral elements location =>
    refine k.bind (k.evaluateAll h elements) fun values => ?_
    rw [← ArrayObject.spelled_ofList]
    exact k.newArray _
  | assocLiteral members location =>
    refine k.bind (k.evaluateMembers h members) fun values => ?_
    rw [← AssocArray.spelled_ofMembers]
    exact k.newAssoc _
  | dottedGet object name optional location =>
    exact k.bind (h.evaluate object) fun source => k.dottedGet source name optional
  | attributeGet object name location =>
    exact k.bind (h.evaluate object) fun source => k.attributeGet source name
  | indexedGet object indexes optional closing location =>
    exact k.indexedGet h object indexes optional closing location
  | call callee args optional closing location =>
    exact k.callExpression h budget callee args optional closing

end Calls

end Mirror

end BrightScript
