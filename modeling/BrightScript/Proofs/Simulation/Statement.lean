import BrightScript.Proofs.Simulation.Expression

/-!
# Statements keep simulations

The rule of every form of statement keeps a simulation, also while a label is looked for. Together
with the rules of expressions this gives evaluation and execution under every budget
(`Simulation.ofBudget`).
-/

namespace BrightScript

variable {v : Value} {next next' : Run Unit}

def Statement.endsSignals : Statement → Bool
  | .returning .. | .tryCatch .. => true
  | _ => false

namespace Walk

variable {P : Value → Prop} {lax : Prop} (sim : Walk P lax)
variable {g : Grade} {α : Type} {Q : α → Prop}

/-! ## Binding names -/

theorem rejectReserved (name : Identifier) (message : String) :
    sim.rel g (fun _ => True) (Run.rejectReserved name message)
      (Run.rejectReserved name message) := by
  unfold Run.rejectReserved
  split
  · exact sim.error rfl
  · exact sim.done trivial

theorem assign (hv : P v) (name : Identifier) (location : Location) :
    sim.performs (Run.assign name v location) (Run.assign name v location) := by
  unfold Run.assign
  split
  · dsimp only
    split
    · next w hw => exact sim.bindLocal (sim.admissible.coerceForDesignator? hv hw) name
    · exact sim.error rfl
  · exact sim.bindLocal hv name

theorem declare (name : Identifier) (body : Procedure) :
    sim.performs (Run.declare name body) (Run.declare name body) := by
  unfold Run.declare
  cases hname : name.isReserved with
  | true =>
    have refused : sim.rel .statement (fun _ => False)
        (Run.rejectReserved name Run.reservedFunction)
        (Run.rejectReserved name Run.reservedFunction) := by
      rw [Run.rejectReserved, hname]
      exact sim.error rfl
    exact sim.bind refused fun _ h => h.elim
  | false =>
    refine sim.bind (sim.rejectReserved name _) fun _ _ => ?_
    refine sim.bind (sim.look Core.scopes) fun scopes _ => ?_
    split
    · split
      · split
        · exact sim.done trivial
        · exact sim.error rfl
      · exact sim.done trivial
    · next hhas =>
      refine sim.update (.declare hname sim.admissible.procedure fun hm => hhas ?_)
      simp [Scopes.has, hm]

theorem lookup (name : Identifier) : sim.rel g P (Run.lookup name) (Run.lookup name) :=
  sim.lift (sim.view (fun c => c.scopes.get name) fun _ hs => hs.scopes.get sim.admissible name)

theorem stepped (op : IncrementOp) (v : Value) (location : Location) :
    sim.rel g P (Evaluator.stepped op v location) (Evaluator.stepped op v location) := by
  unfold Evaluator.stepped
  obtain ⟨operator, word⟩ := Evaluator.stepOperator op
  dsimp only
  split
  · next w hw _ => exact sim.done (sim.admissible.plain (Value.isPlain_arithmetic hw))
  · exact sim.error rfl

theorem stepCounter (counter : Identifier) (step : Value) (location : Location) :
    sim.performs (Evaluator.stepCounter counter step location)
      (Evaluator.stepCounter counter step location) := by
  refine sim.bind (sim.lookup counter) fun current _ => ?_
  dsimp only
  split
  · next next hn => exact sim.assign (sim.admissible.plain (Value.isPlain_arithmetic hn)) _ _
  · exact sim.error rfl

/-! ## Loops, `print` and errors, without their parts -/

theorem takeResume : sim.performs Evaluator.takeResume Evaluator.takeResume := by
  unfold Evaluator.takeResume
  rw [Routine.change_eq]
  refine sim.bind (sim.look fun c => c.resumeAt.getD 0) fun n _ => ?_
  exact sim.bind (sim.update (.resume none)) fun _ _ => sim.done trivial

theorem bindHelper (b : Builtin) : sim.performs (Run.bindHelper b) (Run.bindHelper b) :=
  sim.first sim.freshIdentity fun _ _ => sim.update (.bind b.name sim.admissible.builtin)

/-- What follows the search of a loop's body that came to its end. -/
theorem goOn (hn : sim.performs next next') :
    sim.performs (do if ← Evaluator.searching then return else next)
      (do if ← Evaluator.searching then return else next') := by
  refine sim.bind (sim.look fun c => c.scopes.pending.isSome) fun b _ => ?_
  cases b with
  | true => exact sim.done trivial
  | false => exact hn

theorem caught {e : ScriptError} (hlax : lax) (he : e.Holds P) :
    sim.rel .expression P (Run.caught e) (Run.caught e) := by
  -- The stack is read first, so that what is allocated depends on the heap only.
  have backtrace : sim.rel .expression P
      (Routine.view Session.stack >>= fun stack => Routine.change fun s =>
        let trace := s.heap.newBacktrace e.location (e.backtrace.getD stack)
        (Value.array trace.1, { s with heap := trace.2 }))
      (Routine.view Session.stack >>= fun stack => Routine.change fun s =>
        let trace := s.heap.newBacktrace e.location (e.backtrace.getD stack)
        (Value.array trace.1, { s with heap := trace.2 })) := by
    refine sim.bind (sim.look Core.stack) fun stack _ => ?_
    let trace (h : Heap) := h.newBacktrace e.location (e.backtrace.getD stack)
    exact sim.allocate (fun h => (.array (trace h).1, (trace h).2))
      (fun _ hh => ⟨sim.admissible.plain rfl, hh.newBacktrace sim.admissible _ _⟩) (.inl hlax)
  exact sim.bind backtrace fun v hv => sim.newAssoc (he.members sim.admissible hv)

theorem throwValue (v : Value) (location : Location) :
    sim.rel g Q (Run.throwValue v location) (Run.throwValue v location) := by
  refine sim.first (sim.view (Q := fun e => e.Raised P)
    (fun c => (Thrown.ofValue c.heap v).toError location c.stack) ?_) fun e he => ?_
  · exact fun s hs => ⟨Thrown.ofValue_extra sim.admissible hs.heap v, Thrown.ofValue_carried _ v⟩
  · exact sim.lift (sim.raise he)

section Nested

variable {ev ev' : Evaluator} (h : sim.Related ev ev')
include h

/-! ## Assignments -/

theorem assignment (name : Identifier) (value : Expr) :
    sim.performs (ev.assignment name value) (ev'.assignment name value) := by
  refine sim.bind (sim.rejectReserved name _) fun _ _ => ?_
  exact sim.first (h.evaluate value) fun v hv => sim.assign hv name value.location

theorem sizes (total : Nat) (dimensions : List Expr) :
    sim.rel .expression (Heap.Fits total) (ev.sizes total dimensions)
      (ev'.sizes total dimensions) := by
  induction dimensions generalizing total with
  | nil => exact sim.ret trivial
  | cons dimension rest ih =>
    refine sim.bind (h.evaluate dimension) fun v _ => ?_
    split
    · exact sim.fault
    · dsimp only
      split
      · exact sim.fault
      · next hsize =>
        exact sim.bind (ih _) fun _ hrest => sim.ret ⟨Nat.le_of_not_lt hsize, hrest⟩

theorem dim (name : Identifier) (dimensions : List Expr) :
    sim.performs (ev.dim name dimensions) (ev'.dim name dimensions) := by
  refine sim.bind (sim.rejectReserved name _) fun _ _ => ?_
  refine sim.first (sim.sizes h 1 dimensions) fun found hfits => ?_
  have grid := sim.allocate (g := .statement) (Heap.newGrid found)
    (fun _ hh => Heap.Holds.newGrid sim.admissible found hh)
    (.inr fun _ hh => hh.newGrid Nat.one_pos hfits)
  exact sim.bind grid fun v hv => sim.bindLocal hv name

theorem dottedSet (object : Expr) (name : Identifier) (hv : P v) :
    sim.rel .expression (fun _ => True) (ev.dottedSet object name v)
      (ev'.dottedSet object name v) := by
  refine sim.bind (h.evaluate object) fun target _ => ?_
  split
  · exact sim.modifyAssoc fun _ ha => ha.set hv _ _
  · exact sim.fault
  · exact sim.fault

theorem storeThrough (closing location : Location) (hv : P v) (indexes : List Expr)
    (current : Value) :
    sim.rel .expression (fun _ => True) (ev.storeThrough closing location v current indexes)
      (ev'.storeThrough closing location v current indexes) := by
  induction indexes generalizing current with
  | nil => exact sim.ret trivial
  | cons index rest ih =>
    refine sim.bind (sim.arrayIndex h index) fun n _ => ?_
    split
    · next r =>
      split
      · split
        · next place hplace =>
          exact sim.modifyArray (fun _ ha => ha.put (sim.admissible.plain rfl) hv _)
            (.inr (.put hplace v))
        · exact sim.fault
      · exact sim.bind (sim.array r) fun a _ => ih _
    · exact sim.fault

theorem indexedSet (object : Expr) (indexes : List Expr) (hv : P v) (closing location : Location) :
    sim.rel .expression (fun _ => True) (ev.indexedSet object indexes v closing location)
      (ev'.indexedSet object indexes v closing location) := by
  refine sim.bind (h.evaluate object) fun target _ => ?_
  split
  · refine sim.bind (sim.assocKey h indexes closing) fun key _ => ?_
    exact sim.modifyAssoc fun _ ha => ha.set hv _ _
  · exact sim.storeThrough h closing location hv indexes _
  · exact sim.fault

theorem increment (target : Expr) (op : IncrementOp) (location : Location) :
    sim.performs (ev.increment target op location) (ev'.increment target op location) := by
  refine sim.first (h.evaluate target) fun v _ => ?_
  refine sim.bind (sim.stepped op v.unbox location) fun w hw => ?_
  cases target with
  | reference name => exact sim.bindLocal hw name
  | dottedGet object name => exact sim.lift (sim.dottedSet h object name hw)
  | indexedGet object indexes optional closing location =>
    exact sim.lift (sim.indexedSet h object indexes hw closing location)
  | _ => exact sim.fault

/-! ## Branches and loops -/

theorem holds (condition : Expr) :
    sim.rel g (fun _ => True) (ev.holds condition) (ev'.holds condition) :=
  sim.first (h.evaluate condition) fun _ _ => sim.done trivial

theorem clauses (elseBranch : Option Block) (branches : List Clause) :
    sim.performs (ev.clauses elseBranch branches) (ev'.clauses elseBranch branches) := by
  induction branches with
  | nil =>
    cases elseBranch with
    | none => exact sim.done trivial
    | some block => exact sim.executeBlock h block
  | cons clause rest ih =>
    refine sim.bind (sim.holds h clause.condition) fun b _ => ?_
    cases b with
    | true => exact sim.executeBlock h clause.block
    | false => exact ih

theorem stepOf (step : Option Expr) :
    sim.rel .expression P (ev.stepOf step) (ev'.stepOf step) := by
  cases step with
  | none => exact sim.plain rfl
  | some e =>
    refine sim.bind (h.evaluate e) fun v hv => ?_
    split
    · exact sim.plain rfl
    · exact sim.plain rfl
    · exact sim.ret (sim.admissible.unbox hv)

theorem inLoop (form : LoopForm) (body : Block) {ended ended' goOn goOn' stop stop' : Run α}
    (hended : sim.rel .statement Q ended ended') (hgoOn : sim.rel .statement Q goOn goOn')
    (hstop : sim.rel .statement Q stop stop') :
    sim.rel .statement Q (ev.inLoop form body ended goOn stop)
      (ev'.inLoop form body ended' goOn' stop') := by
  refine sim.intercept (sim.executeBlock h body) (fun _ _ => hended) ?_ ?_
  · intro signal hj
    dsimp only
    rcases signal.turn? form with _ | _ | _
    · exact sim.jump hj
    · exact hstop
    · exact hgoOn
  · intro signal hj
    have hturn : signal.turn? form = none := by
      cases form <;> cases signal <;> first | rfl | cases hj
    dsimp only
    rw [hturn]
    exact ⟨rfl, rfl⟩

theorem forPass (counter : Identifier) (limit step : Value) (location : Location) (body : Block) :
    sim.performs (ev.forPass counter limit step location body ())
      (ev'.forPass counter limit step location body ()) := by
  refine sim.bind (sim.lookup counter) fun current _ => ?_
  dsimp only
  split
  · exact sim.done trivial
  · have next : sim.performs
        (do Evaluator.stepCounter counter step location; return Sum.inl ())
        (do Evaluator.stepCounter counter step location; return (Sum.inl () : Unit ⊕ Unit)) :=
      sim.bind (sim.stepCounter counter step location) fun _ _ => sim.done trivial
    exact sim.inLoop h .counting body next next (sim.done trivial)

theorem forLoop (budget : Nat) (counter : Identifier) (start final : Expr) (step : Option Expr)
    (body : Block) (resume : Bool) :
    sim.performs (ev.forLoop budget counter start final step body resume)
      (ev'.forLoop budget counter start final step body resume) := by
  refine sim.first (sim.stepOf h step) fun amount _ => ?_
  have passes (location : Location) : sim.performs
      (do Routine.iterate (ev.forPass counter (← ev.evaluate final).unbox amount location body)
            budget ())
      (do Routine.iterate (ev'.forPass counter (← ev'.evaluate final).unbox amount location body)
            budget ()) := by
    refine sim.first (h.evaluate final) fun limit _ => ?_
    refine sim.iterate (fun _ (_ : True) => ?_) budget trivial
    refine sim.weaken (sim.forPass h counter limit.unbox amount location body) fun r _ => ?_
    cases r <;> trivial
  cases resume with
  | true => exact sim.bind (sim.stepCounter _ _ _) fun _ _ => passes _
  | false =>
    refine sim.first (h.evaluate start) fun v hv => ?_
    exact sim.bind (sim.assign hv _ _) fun _ _ => passes _

theorem forEachPasses (item : Identifier) (body : Block) (skip index : Nat) {elements : List Value}
    (hv : ∀ v ∈ elements, P v) :
    sim.performs (ev.forEachPasses item body skip index elements)
      (ev'.forEachPasses item body skip index elements) := by
  induction elements generalizing index with
  | nil => exact sim.done trivial
  | cons element rest ih =>
    obtain ⟨helement, hrest⟩ := List.forall_mem_cons.1 hv
    refine sim.bind (sim.bindLocal helement item) fun _ _ => ?_
    split
    · exact ih _ hrest
    · refine sim.intercept (sim.executeBlock h body) (fun _ _ => ih _ hrest) ?_ ?_
      · intro signal hj
        cases signal with
        | continueFor => exact ih _ hrest
        | exitFor => exact sim.done trivial
        | goto label location =>
          exact sim.bind (sim.update (.resume (some (index + 1)))) fun _ _ => sim.jump rfl
        | exitWhile | continueWhile => exact sim.jump rfl
        | returning | ending | debugExit | error => cases hj
      · intro signal hj
        cases signal with
        | continueFor | exitFor | goto => cases hj
        | _ => exact ⟨rfl, rfl⟩

theorem forEach (item : Identifier) (target : Expr) (body : Block) (resume : Bool) :
    sim.performs (ev.forEach item target body resume) (ev'.forEach item target body resume) := by
  refine sim.first (h.evaluate target) fun collection _ => ?_
  refine sim.first (sim.view (Q := fun found => ∀ vs, found = some vs → ∀ v ∈ vs, P v)
    (fun c => c.heap.elements? collection) ?_) fun found hfound => ?_
  · exact fun s hs vs he => hs.heap.elements? sim.admissible he
  · split
    · exact sim.ofExpression (sim.update (.complain _))
    · next elements =>
      have passes (skip : Nat) := sim.forEachPasses h item body skip 0 (hfound elements rfl)
      cases resume with
      | false => exact passes 0
      | true => exact sim.bind sim.takeResume fun skip _ => passes skip

theorem whilePass (condition : Expr) (body : Block) :
    sim.performs (ev.whilePass condition body ()) (ev'.whilePass condition body ()) := by
  refine sim.bind (sim.holds h condition) fun b _ => ?_
  cases b with
  | false => exact sim.done trivial
  | true =>
    exact sim.inLoop h .conditional body (sim.done trivial) (sim.done trivial) (sim.done trivial)

theorem whileLoop (budget : Nat) (condition : Expr) (body : Block) :
    sim.performs (ev.whileLoop budget condition body) (ev'.whileLoop budget condition body) := by
  refine sim.iterate (fun _ (_ : True) => ?_) budget trivial
  refine sim.weaken (sim.whilePass h condition body) fun r _ => ?_
  cases r <;> trivial

/-! ## Printing -/

theorem printItem (item : PrintItem) :
    sim.rel .expression (fun _ => True) (ev.printItem item) (ev'.printItem item) := by
  cases item with
  | comma => exact sim.bind (sim.look Core.column) fun _ _ => sim.ret trivial
  | semicolon => exact sim.ret trivial
  | expression e =>
    exact sim.bind (h.evaluate e) fun v _ => sim.look fun c => Run.printed c.heap v

theorem printItems (line : String) (items : List PrintItem) :
    sim.performs (ev.printItems line items) (ev'.printItems line items) := by
  induction items generalizing line with
  | nil => exact sim.done trivial
  | cons item rest ih =>
    refine sim.first (sim.printItem h item) fun piece _ => ?_
    exact sim.bind (sim.update (.advance piece)) fun _ _ => ih _

theorem printLine (items : List PrintItem) :
    sim.performs (ev.printLine items) (ev'.printLine items) := by
  refine sim.bind (sim.printItems h "" items) fun line _ => ?_
  split
  · exact sim.done trivial
  · exact sim.bind (sim.update (.advance "\n")) fun _ _ => sim.done trivial

theorem print (items : List PrintItem) : sim.performs (ev.print items) (ev'.print items) := by
  refine sim.bind (sim.bindHelper .tab) fun _ _ => sim.bind (sim.bindHelper .pos) fun _ _ => ?_
  exact sim.printing (sim.printLine h items)

/-! ## Throwing and catching -/

theorem catchError (hlax : lax) (binding : Identifier) (catchBlock : Block) {e : ScriptError}
    (he : e.Holds P) :
    sim.performs (ev.catchError binding catchBlock e) (ev'.catchError binding catchBlock e) := by
  refine sim.first (sim.caught hlax he) fun v hv => ?_
  refine sim.bind (sim.bindLocal hv binding) fun _ _ => ?_
  exact sim.executeBlock h catchBlock

/-! ## Looking for a label -/

theorem searchBlocks (blocks : List Block) :
    sim.performs (ev.searchBlocks blocks) (ev'.searchBlocks blocks) := by
  induction blocks with
  | nil => exact sim.done trivial
  | cons block rest ih =>
    refine sim.bind (sim.executeBlock h block) fun _ _ => ?_
    refine sim.bind (sim.look fun c => c.scopes.pending.isSome) fun b _ => ?_
    cases b with
    | true => exact ih
    | false => exact sim.done trivial

theorem searchLoop (form : LoopForm) (body : Block) (hn : sim.performs next next') :
    sim.performs (ev.searchLoop form body next) (ev'.searchLoop form body next') :=
  sim.inLoop h form body (sim.goOn hn) hn (sim.done trivial)

theorem search (budget : Nat) (label : String) (statement : Statement) :
    sim.performs (ev.search budget label statement) (ev'.search budget label statement) := by
  cases statement with
  | label name =>
    unfold Evaluator.search
    dsimp only
    split
    · exact sim.update .arrive
    · exact sim.done trivial
  | block body => exact sim.executeBlock h body
  | conditional condition thenBranch elseIfs elseBranch location => exact sim.searchBlocks h _
  | tryCatch tryBlock binding catchBlock location => exact sim.executeBlock h catchBlock
  | forLoop counter start final step body location =>
    exact sim.searchLoop h .counting body (sim.forLoop h budget counter start final step body true)
  | forEach item target body location =>
    exact sim.searchLoop h .counting body (sim.forEach h item target body true)
  | whileLoop condition body location =>
    exact sim.searchLoop h .conditional body (sim.whileLoop h budget condition body)
  | _ => exact sim.done trivial

/-! ## The rules -/

theorem returnValue (value : Option Expr) :
    sim.rel .expression (fun found => ∀ v, found = some v → P v) (ev.returnValue value)
      (ev'.returnValue value) := by
  cases value with
  | none => exact sim.ret fun v hv => by cases hv
  | some e =>
    refine sim.bind (h.evaluate e) fun v hv => sim.ret fun w hw => ?_
    cases hw
    exact hv

/-- What a statement does keeps the relation; what a `return` and a `try` do is left open. -/
theorem perform (budget : Nat) (statement : Statement)
    (hends : statement.endsSignals = true → sim.performs
      (ev.perform budget statement) (ev'.perform budget statement)) :
    sim.performs (ev.perform budget statement) (ev'.perform budget statement) := by
  cases statement with
  | expression value => exact sim.first (h.evaluate value) fun _ _ => sim.done trivial
  | assignment name value location => exact sim.assignment h name value
  | dim name dimensions location => exact sim.dim h name dimensions
  | block body => exact sim.executeBlock h body
  | exitFor | exitWhile | continueFor | continueWhile | goto => exact sim.jump rfl
  | declaration name body => exact sim.declare name body
  | conditional condition thenBranch elseIfs elseBranch location => exact sim.clauses h _ _
  | increment target op location => exact sim.increment h target op location
  | print items location => exact sim.print h items
  | label | library => exact sim.done trivial
  | returning | tryCatch => exact hends rfl
  | ending location => exact sim.ending
  | stopping location =>
    exact sim.bind (sim.update .debug) fun _ _ => sim.checkpoint _
  | forLoop counter start final step body location =>
    exact sim.forLoop h budget counter start final step body false
  | forEach item target body location => exact sim.forEach h item target body false
  | whileLoop condition body location => exact sim.whileLoop h budget condition body
  | dottedSet object name value location =>
    exact sim.first (h.evaluate value) fun _ hv => sim.lift (sim.dottedSet h object name hv)
  | indexedSet object indexes value closing location =>
    exact sim.first (h.evaluate value) fun _ hv =>
      sim.lift (sim.indexedSet h object indexes hv closing location)
  | throwing value location =>
    exact sim.first (h.evaluate value) fun v _ => sim.throwValue v location

omit h in
theorem approach (statement : Statement) :
    sim.performs (Evaluator.approach statement) (Evaluator.approach statement) := by
  unfold Evaluator.approach
  split
  · exact sim.bind (sim.checkpoint statement) fun _ _ => sim.moveTo
  · exact sim.moveTo

theorem around (budget : Nat) (statement : Statement) {x x' : Run Unit}
    (hx : sim.performs x x') :
    sim.performs (ev.around budget statement x) (ev'.around budget statement x') := by
  refine sim.first (sim.look fun c => c.scopes.pending) fun pending _ => ?_
  cases pending with
  | some label => exact sim.search h budget label statement
  | none => exact sim.bind (sim.approach statement) fun _ _ => hx

/-- The rule of every form of statement keeps the relation, if what a `return` and a `try` do
keeps it. -/
theorem statement (budget : Nat) (statement : Statement)
    (hends : statement.endsSignals = true → sim.performs
      (ev.perform budget statement) (ev'.perform budget statement)) :
    sim.performs (ev.statement budget statement) (ev'.statement budget statement) :=
  sim.around h budget statement (sim.perform h budget statement hends)

end Nested

theorem callEntry {invoke invoke' : Target → List Value → Run Value} (hcalls : sim.Calls)
    (hinvoke : sim.Invokes invoke invoke') {args : List Value} (hargs : ∀ v ∈ args, P v) :
    sim.rel .expression P (Evaluator.callEntry invoke args) (Evaluator.callEntry invoke' args) := by
  refine sim.bind (sim.view (Q := fun found => ∀ c, found = some c → P (.function c))
    (fun c => c.scopes.entry?) ?_) fun found hfound => ?_
  · exact fun s hs c hc => hs.scopes.entry? sim.admissible hc
  cases found with
  | none => exact sim.plain rfl
  | some c =>
    refine sim.call hcalls hinvoke (hfound c rfl) ?_ _ _ _
    split
    · exact hargs
    · exact fun v hv => absurd hv List.not_mem_nil

end Walk

/-- Executing the statements of a script and calling its entry function keeps the relation. -/
theorem Simulation.programOf {P : Value → Prop} {lax : Prop} (sim : Simulation P lax)
    {ev ev' : Evaluator} {invoke invoke' : Target → List Value → Run Value}
    (h : sim.Related ev ev') (hinvoke : sim.Invokes invoke invoke') (statements : List Statement)
    {args : List Value} (hargs : ∀ v ∈ args, P v) :
    sim.rel .statement P (ev.program invoke statements args)
      (ev'.program invoke' statements args) := by
  refine sim.bind (sim.crashing (sim.executeAll h statements)) fun _ _ => ?_
  refine sim.first (sim.look Core.entryPoint) fun b _ => ?_
  cases b with
  | true => exact sim.ofExpression (sim.callEntry sim.calls hinvoke hargs)
  | false => exact sim.ofExpression (sim.plain rfl)

/-! ## All budgets -/

namespace Simulation

variable {P : Value → Prop} (sim : Simulation P)

section Nested

variable {ev ev' : Evaluator} (h : sim.Related ev ev')
include h

theorem tryCatch (tryBlock : Block) (binding : Identifier) (catchBlock : Block) :
    sim.performs (ev.tryCatch tryBlock binding catchBlock)
      (ev'.tryCatch tryBlock binding catchBlock) :=
  sim.catching (sim.executeBlock h tryBlock) fun _ he =>
    sim.catchError h trivial binding catchBlock he

theorem statement (budget : Nat) (statement : Statement) :
    sim.performs (ev.statement budget statement) (ev'.statement budget statement) := by
  refine sim.toWalk.statement h budget statement fun hends => ?_
  cases statement with
  | returning value location =>
    exact sim.first (sim.returnValue h value) fun _ hv => sim.returning hv
  | tryCatch tryBlock binding catchBlock location =>
    exact sim.tryCatch h tryBlock binding catchBlock
  | _ => cases hends

end Nested

end Simulation

theorem Walk.Related.succ {P : Value → Prop} (sim : Simulation P) {ev ev' : Evaluator}
    (h : sim.Related ev ev') (budget : Nat) :
    sim.Related ⟨ev.expression budget, ev.statement budget⟩
      ⟨ev'.expression budget, ev'.statement budget⟩ :=
  ⟨sim.expression h budget, sim.statement h budget⟩

namespace Simulation

variable {P : Value → Prop} (sim : Simulation P)

/-- Evaluation and execution are related to themselves under every budget. -/
theorem ofBudget (budget : Nat) :
    sim.Related (Evaluator.ofBudget budget) (Evaluator.ofBudget budget) := by
  induction budget with
  | zero => exact ⟨fun _ => sim.giveUp, fun _ => sim.ofExpression sim.giveUp⟩
  | succ budget ih => exact ih.succ sim budget

/-! ## Scripts -/

theorem callEntry (budget : Nat) {args : List Value} (hargs : ∀ v ∈ args, P v) :
    sim.rel .expression P (Run.callEntry budget args) (Run.callEntry budget args) :=
  sim.toWalk.callEntry sim.calls (sim.invoke (sim.ofBudget budget) budget fun _ => trivial) hargs

theorem program (budget : Nat) (statements : List Statement) {args : List Value}
    (hargs : ∀ v ∈ args, P v) :
    sim.rel .statement P (Run.program budget statements args)
      (Run.program budget statements args) :=
  sim.programOf (sim.ofBudget budget) (sim.invoke (sim.ofBudget budget) budget fun _ => trivial)
    statements hargs

end Simulation

end BrightScript
