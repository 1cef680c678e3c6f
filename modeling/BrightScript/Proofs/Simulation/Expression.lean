import BrightScript.Proofs.Simulation.Library

/-!
# Expressions keep simulations

The rule of every form of expression relates its runs under related evaluators. A call runs its body
at the grade of bodies and is itself of the grade of expressions: what a body binds, and the jumps
that leave it, end at the call. What an array literal and a call do is left open at first, as the one
makes an array of any size and the other runs whatever it is given.
-/

namespace BrightScript

variable {op : BinaryOp} {left right : Evaluated} {args : List Value} {location : Location}
  {source : Value} {c : Callable}

/-- Whether the rule of an expression makes an array from a list or runs a function. -/
def Expr.isOpen : Expr → Bool
  | .arrayLiteral .. | .call .. => true
  | _ => false

namespace Walk

variable {P : Value → Prop} {lax : Prop} (sim : Walk P lax)
variable {g : Grade} {α : Type} {Q : α → Prop}

/-! ## Operators -/

theorem operatorMismatch :
    sim.rel g Q (Run.operatorMismatch op left right) (Run.operatorMismatch op left right) :=
  sim.error rfl

theorem arithmetic :
    sim.rel .expression P (Run.arithmetic op left right location)
      (Run.arithmetic op left right location) := by
  unfold Run.arithmetic
  split
  · next v hv => exact sim.plain (Value.isPlain_arithmetic hv)
  · exact sim.fault
  · exact sim.operatorMismatch

theorem operate :
    sim.rel .expression P (Run.operate op left right location)
      (Run.operate op left right location) := by
  have numeric (b : Bool) : sim.rel .expression P
      (if b then Run.arithmetic op left right location else Run.operatorMismatch op left right)
      (if b then Run.arithmetic op left right location
        else Run.operatorMismatch op left right) := by
    split
    · exact sim.arithmetic
    · exact sim.operatorMismatch
  cases op with
  | leftShift | rightShift =>
    simp only [Run.operate]
    split
    · exact sim.operatorMismatch
    · split
      · exact sim.fault
      · exact sim.arithmetic
  | subtract | multiply | divide | intDivide | modulo | power => exact numeric _
  | add =>
    simp only [Run.operate]
    split
    · exact sim.plain rfl
    · exact numeric _
  | less | lessEqual | greater | greaterEqual | equal | notEqual =>
    simp only [Run.operate]
    split
    · exact sim.plain rfl
    · exact sim.operatorMismatch
  | and | or => exact sim.operatorMismatch

theorem combine :
    sim.rel .expression P (Run.combine op left right location)
      (Run.combine op left right location) := by
  unfold Run.combine
  split
  · exact sim.plain rfl
  · split
    · exact sim.plain rfl
    · exact sim.operatorMismatch
  · split
    · exact sim.plain rfl
    · exact sim.operatorMismatch
  · split
    · exact sim.arithmetic
    · exact sim.operatorMismatch

section Nested

variable {ev ev' : Evaluator} (h : sim.Related ev ev')
include h

theorem evaluateAll (es : List Expr) :
    sim.rel .expression (fun vs => ∀ v ∈ vs, P v) (ev.evaluateAll es) (ev'.evaluateAll es) := by
  induction es with
  | nil => exact sim.ret fun _ hv => absurd hv List.not_mem_nil
  | cons e rest ih =>
    refine sim.bind (h.evaluate e) fun v hv => ?_
    exact sim.bind ih fun vs hvs => sim.ret (List.forall_mem_cons.2 ⟨hv, hvs⟩)

theorem operand (e : Expr) :
    sim.rel .expression (fun a => P a.value) (ev.operand e) (ev'.operand e) :=
  sim.bind (h.evaluate e) fun _ hv => sim.ret (sim.admissible.unbox hv)

theorem logical (hl : P left.value) (right : Expr) (location : Location) :
    sim.rel .expression P (ev.logical op left right location)
      (ev'.logical op left right location) := by
  unfold Evaluator.logical
  split
  · exact sim.ret hl
  · split
    · exact sim.bind (sim.operand h right) fun _ _ => sim.combine
    · exact sim.operatorMismatch

theorem binary (left : Expr) (op : BinaryOp) (right : Expr) (location : Location) :
    sim.rel .expression P (ev.binary left op right location)
      (ev'.binary left op right location) := by
  refine sim.bind (sim.operand h left) fun a ha => ?_
  split
  · exact sim.logical h ha right location
  · exact sim.bind (sim.operand h right) fun _ _ => sim.operate

theorem unary (op : UnaryOp) (e : Expr) (location : Location) :
    sim.rel .expression P (ev.unary op e location) (ev'.unary op e location) := by
  refine sim.bind (sim.operand h e) fun a ha => ?_
  split
  · next v hv => exact sim.ret (sim.admissible.unary? ha hv)
  · exact sim.error rfl

/-! ## Members and indexes -/

theorem arrayIndex (index : Expr) :
    sim.rel g (fun _ => True) (ev.arrayIndex index) (ev'.arrayIndex index) := by
  refine sim.first (h.evaluate index) fun v _ => ?_
  split
  · exact sim.done trivial
  · exact sim.fault

theorem assocKey (indexes : List Expr) (closing : Location) :
    sim.rel g (fun _ => True) (ev.assocKey indexes closing) (ev'.assocKey indexes closing) := by
  unfold Evaluator.assocKey
  split
  · next index =>
    refine sim.first (h.evaluate index) fun v _ => ?_
    split
    · exact sim.done trivial
    · exact sim.error rfl
  · exact sim.fault

theorem follow (location : Location) (indexes : List Expr) {current : Value} (hc : P current) :
    sim.rel .expression P (ev.follow location current indexes)
      (ev'.follow location current indexes) := by
  induction indexes generalizing current with
  | nil => exact sim.ret hc
  | cons index rest ih =>
    refine sim.bind (sim.arrayIndex h index) fun n _ => ?_
    split
    · next r =>
      refine sim.bind (sim.array r) fun a ha => ih (ha.get (sim.admissible.plain rfl) n)
    · exact sim.fault

theorem indexedGet (object : Expr) (indexes : List Expr) (optional : Bool)
    (closing location : Location) :
    sim.rel .expression P (ev.indexedGet object indexes optional closing location)
      (ev'.indexedGet object indexes optional closing location) := by
  refine sim.bind (h.evaluate object) fun source hs => ?_
  split
  · next r =>
    refine sim.bind (sim.assocKey h indexes closing) fun key _ => ?_
    refine sim.bind (sim.view (Q := fun found => P (found.getD .invalid))
      (fun c => c.heap.member? (.assoc r) key) fun s hs => ?_) fun found hf => sim.ret hf
    cases hm : s.core.heap.member? (.assoc r) key with
    | none => exact sim.admissible.plain rfl
    | some v => exact hs.heap.member? sim.admissible hm
  · exact sim.follow h location indexes hs
  · split
    · exact sim.plain rfl
    · exact sim.fault
  · exact sim.fault

end Nested

theorem methodOf (hs : P source) (name : Identifier) :
    sim.rel .expression P (Run.methodOf source name) (Run.methodOf source name) := by
  unfold Run.methodOf
  split
  · next c hc => exact sim.ret (sim.admissible.method? hs hc)
  · split
    · exact sim.plain rfl
    · split
      · exact sim.fault
      · exact sim.fault
      · exact sim.fault

theorem dottedGet (hs : P source) (name : Identifier) (optional : Bool) :
    sim.rel .expression P (Run.dottedGet source name optional)
      (Run.dottedGet source name optional) := by
  refine sim.bind (sim.view (Q := fun found => ∀ v, found = some v → P v)
    (fun c => c.heap.member? source name.name) fun s hs v hv => ?_) fun found hf => ?_
  · exact hs.heap.member? sim.admissible hv
  · split
    · next v => exact sim.ret (hf v rfl)
    · split
      · exact sim.plain rfl
      · exact sim.methodOf hs name

theorem attributeGet {name : Identifier} :
    sim.rel .expression P (Run.attributeGet source name) (Run.attributeGet source name) := by
  unfold Run.attributeGet
  split
  · exact sim.fault
  · exact sim.fault

theorem freshIdentity :
    sim.rel .expression (fun _ => True) Run.freshIdentity Run.freshIdentity := by
  unfold Run.freshIdentity
  rw [Routine.change_eq]
  refine sim.bind (sim.look fun c => Identity.fresh c.nextIdentity) fun i _ => ?_
  exact sim.bind (sim.update .identity) fun _ _ => sim.ret trivial

theorem newFunction (body : Procedure) :
    sim.rel .expression P (Evaluator.newFunction body) (Evaluator.newFunction body) :=
  sim.bind sim.freshIdentity fun _ _ => sim.ret sim.admissible.procedure

/-! ## Calls -/

theorem bindLocal {v : Value} (hv : P v) (name : Identifier) :
    sim.performs (Run.bindLocal name v) (Run.bindLocal name v) := by
  unfold Run.bindLocal
  split
  · exact sim.error rfl
  · exact sim.update (.bind name.name hv)

theorem labelMissing : sim.rel g Q (Run.labelMissing location) (Run.labelMissing location) :=
  sim.first (sim.look fun c => c.stack.tail) fun _ _ => sim.error rfl

/-- Calls of functions with related bodies are related. -/
def Calls : Prop :=
  ∀ {frame? : Option Frame} {returns : Kind} {context : Option AssocRef} {call : Location}
    {x x' : Run Value}, sim.rel .body P x x' →
      sim.rel .expression P
        (Run.calling frame? returns context call (Routine.handle x Run.crash))
        (Run.calling frame? returns context call (Routine.handle x' Run.crash))

/-- What runs functions is related. -/
def Invokes (invoke invoke' : Target → List Value → Run Value) : Prop :=
  ∀ {c : Callable} {args : List Value}, P (.function c) → (∀ v ∈ args, P v) →
    sim.rel .body P (invoke c.target args) (invoke' c.target args)

theorem call {invoke invoke' : Target → List Value → Run Value} (hcalls : sim.Calls)
    (hinvoke : sim.Invokes invoke invoke') (hc : P (.function c)) (hargs : ∀ v ∈ args, P v)
    (context : Option AssocRef) (location closing : Location) :
    sim.rel .expression P (Run.call invoke c args context location closing)
      (Run.call invoke' c args context location closing) := by
  unfold Run.call Run.dispatch
  split
  · next found hf => exact hcalls (hinvoke hc (sim.admissible.firstSatisfied hargs hf))
  · exact sim.error rfl

section Calls

variable {ev ev' : Evaluator} (h : sim.Related ev ev')
include h

theorem executeAll (statements : List Statement) :
    sim.performs (ev.executeAll statements) (ev'.executeAll statements) := by
  induction statements with
  | nil => exact sim.done trivial
  | cons s rest ih => exact sim.bind (h.execute s) fun _ _ => ih

theorem executeBlock (b : Block) : sim.performs (ev.executeBlock b) (ev'.executeBlock b) :=
  sim.executeAll h b.statements

theorem defaultValue (p : Parameter) :
    sim.rel .expression P (ev.defaultValue p) (ev'.defaultValue p) := by
  unfold Evaluator.defaultValue
  cases p.default? with
  | none => exact sim.plain rfl
  | some e =>
    refine sim.bind (h.evaluate e) fun v hv => sim.ret ?_
    cases hw : v.coerce? p.kind with
    | none => exact hv
    | some w => exact sim.admissible.coerce? hv hw

theorem bindParameters (parameters : List Parameter) (hargs : ∀ v ∈ args, P v) :
    sim.performs (ev.bindParameters parameters args) (ev'.bindParameters parameters args) := by
  induction parameters generalizing args with
  | nil => exact sim.done trivial
  | cons p ps ih =>
    cases args with
    | nil =>
      refine sim.first (sim.defaultValue h p) fun v hv => ?_
      exact sim.bind (sim.bindLocal hv p.name) fun _ _ => ih hargs
    | cons v vs =>
      obtain ⟨hv, hvs⟩ := List.forall_mem_cons.1 hargs
      exact sim.bind (sim.bindLocal hv p.name) fun _ _ => ih hvs

theorem runBody (body : Procedure) (last : Location) :
    sim.rel .body (fun _ => True) (ev.runBody body last) (ev'.runBody body last) := by
  refine sim.intercept (sim.ofStatement (sim.executeBlock h body.body)) ?_ ?_ ?_
  · exact fun _ _ => sim.done trivial
  · intro signal hj
    cases signal with
    | goto label location =>
      exact sim.bind (sim.update (.seek (Text.fold label))) fun _ _ => sim.done trivial
    | exitFor | exitWhile | continueFor | continueWhile => exact sim.ofStatement (sim.jump rfl)
    | returning | ending | debugExit | error => cases hj
  · intro signal hj
    cases signal with
    | goto => cases hj
    | _ => exact ⟨rfl, rfl⟩

theorem runProcedure (budget : Nat) (body : Procedure) (hargs : ∀ v ∈ args, P v) :
    sim.rel .body P (ev.runProcedure budget body args) (ev'.runProcedure budget body args) := by
  refine sim.bind (sim.ofStatement (sim.bindParameters h body.parameters hargs)) fun _ _ => ?_
  have loop := sim.iterate (Q := fun _ => True)
    (fun last (_ : True) => sim.weaken (sim.runBody h body last) fun r _ => by
      cases r <;> trivial) budget (b := body.location) trivial
  refine sim.bind loop fun last _ => ?_
  refine sim.first (sim.look fun c => c.scopes.pending) fun pending _ => ?_
  split
  · exact sim.labelMissing
  · exact sim.plain rfl

theorem invoke (budget : Nat) (hlax : c.target.isLax = true → lax) (hc : P (.function c))
    (hargs : ∀ v ∈ args, P v) :
    sim.rel .body P (ev.invoke budget c.target args) (ev'.invoke budget c.target args) := by
  obtain ⟨i, target, context⟩ := c
  cases target with
  | procedure body => exact sim.runProcedure h budget body hargs
  | builtin b => exact sim.lift (sim.builtin b hargs)
  | method m receiver => exact sim.lift (sim.method hc hlax hargs)

theorem evaluateMembers (members : List Member) :
    sim.rel .expression (fun vs => ∀ v ∈ vs, P v.2) (ev.evaluateMembers members)
      (ev'.evaluateMembers members) := by
  induction members with
  | nil => exact sim.ret fun _ hv => absurd hv List.not_mem_nil
  | cons member rest ih =>
    refine sim.bind (h.evaluate member.value) fun v hv => ?_
    exact sim.bind ih fun vs hvs => sim.ret (List.forall_mem_cons.2 ⟨hv, hvs⟩)

theorem callExpression {invoke invoke' : Target → List Value → Run Value} (hcalls : sim.Calls)
    (hinvoke : sim.Invokes invoke invoke') (callee : Expr) (args : List Expr) (optional : Bool)
    (closing : Location) :
    sim.rel .expression P (ev.callExpression invoke callee args optional closing)
      (ev'.callExpression invoke' callee args optional closing) := by
  refine sim.bind (h.evaluate callee) fun f hf => ?_
  refine sim.bind (sim.evaluateAll h args) fun values hvalues => ?_
  split
  · exact sim.call hcalls hinvoke hf hvalues _ _ _
  · exact sim.call hcalls hinvoke (sim.admissible.content hf) hvalues _ _ _
  · split
    · exact sim.plain rfl
    · exact sim.fault
  · exact sim.fault

/-- The rule of every form of expression keeps the relation, if those of array literals and calls
do. -/
theorem expression (budget : Nat) (e : Expr)
    (hopen : e.isOpen = true →
      sim.rel .expression P (ev.expression budget e) (ev'.expression budget e)) :
    sim.rel .expression P (ev.expression budget e) (ev'.expression budget e) := by
  have ruled {x x' : Run Value} (hx : sim.rel .expression P x x') :
      sim.rel .expression P (Run.moveTo e.location >>= fun _ => x)
        (Run.moveTo e.location >>= fun _ => x') :=
    sim.bind sim.moveTo fun _ _ => hx
  cases e with
  | literal value location => exact ruled (sim.plain (Value.isPlain_ofLiteral value))
  | grouping inner location => exact ruled (h.evaluate inner)
  | reference name =>
    exact ruled
      (sim.view (fun c => c.scopes.get name) fun s hs => hs.scopes.get sim.admissible name)
  | binary left op right location => exact ruled (sim.binary h left op right location)
  | unary op inner location => exact ruled (sim.unary h op inner location)
  | procedure body => exact ruled (sim.newFunction body)
  | assocLiteral members location =>
    exact ruled (sim.bind (sim.evaluateMembers h members) fun values hv =>
      sim.newAssoc (.ofMembers hv))
  | dottedGet object name optional location =>
    exact ruled (sim.bind (h.evaluate object) fun source hs => sim.dottedGet hs name optional)
  | attributeGet object name location =>
    exact ruled (sim.bind (h.evaluate object) fun _ _ => sim.attributeGet)
  | indexedGet object indexes optional closing location =>
    exact ruled (sim.indexedGet h object indexes optional closing location)
  | arrayLiteral | call => exact hopen rfl

/-- The rules of all forms keep the relation if calls do and arrays may be made from any list. -/
theorem expressionOfCalls (hlax : lax) (hcalls : sim.Calls) (budget : Nat) (e : Expr) :
    sim.rel .expression P (ev.expression budget e) (ev'.expression budget e) := by
  refine sim.expression h budget e fun hopen => sim.bind sim.moveTo fun _ _ => ?_
  cases e with
  | arrayLiteral elements location =>
    exact sim.bind (sim.evaluateAll h elements) fun values hv =>
      sim.newArray (.ofList hv) (.inl hlax)
  | call callee args optional closing location =>
    exact sim.callExpression h hcalls (sim.invoke h budget fun _ => hlax) callee args optional
      closing
  | _ => cases hopen

end Calls

end Walk

namespace Simulation

theorem calls {P : Value → Prop} {lax : Prop} (sim : Simulation P lax) : sim.Calls :=
  fun hx => sim.calling (sim.crashing hx)

variable {P : Value → Prop} (sim : Simulation P)

section Nested

variable {ev ev' : Evaluator} (h : sim.Related ev ev')
include h

theorem call (budget : Nat) (hc : P (.function c)) (hargs : ∀ v ∈ args, P v)
    (context : Option AssocRef) (location closing : Location) :
    sim.rel .expression P (ev.call budget c args context location closing)
      (ev'.call budget c args context location closing) :=
  sim.toWalk.call sim.calls (sim.invoke h budget fun _ => trivial) hc hargs context location closing

theorem expression (budget : Nat) (e : Expr) :
    sim.rel .expression P (ev.expression budget e) (ev'.expression budget e) :=
  sim.expressionOfCalls h trivial sim.calls budget e

end Nested

end Simulation

end BrightScript
