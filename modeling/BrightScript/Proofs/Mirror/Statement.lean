import BrightScript.Proofs.Mirror.Expression

/-!
# Statements in mirrors

A statement with names spelled anew follows the statement, also while a label is looked for. What a
`print` does is left to the mirror, because it moves the cursor (`Mirror.perform`).
-/

namespace BrightScript

/-! ## Printing -/

namespace Run

variable {sp : Spelling}

theorem printed_spelled (h : Heap) (v : Value) :
    printed (h.spelled sp) (v.spelled sp) = printed h v := by
  simp only [printed, Value.isNumberComparable_spelled, Value.isNonNegative_spelled,
    Heap.text_spelled]

theorem staysOnLine_spelledAll (items : List PrintItem) :
    staysOnLine (PrintItem.spelledAll sp items) = staysOnLine items := by
  have hmap : PrintItem.spelledAll sp items = items.map (PrintItem.spelled sp) := by
    induction items with
    | nil => rfl
    | cons item rest ih => exact congrArg (_ :: ·) ih
  rw [staysOnLine, hmap, List.getLast?_map, staysOnLine]
  cases items.getLast? with
  | none => rfl
  | some item => cases item <;> rfl

theorem withoutHelpers_spelled (s : Session) :
    withoutHelpers (s.spelled sp) = (withoutHelpers s).spelled sp := by
  have hscopes : (withoutHelpers (s.spelled sp)).scopes = (withoutHelpers s).scopes.spelled sp := by
    simp only [withoutHelpers, Scopes.spelled_remove]
    rfl
  exact congrArg (fun scopes : Scopes => { s.spelled sp with scopes := scopes }) hscopes

end Run

/-! ## Scripts -/

def Finish.spelled (sp : Spelling) (f : Finish) : Finish :=
  { f with value := f.value.spelled sp }

namespace Mirror

variable (k : Mirror) {α β : Type}

/-! ## Binding names -/

theorem rejectTarget (name : Identifier) :
    k.Follows id (Run.rejectReserved name Run.reservedTarget)
      (Run.rejectReserved (name.spelledTarget k.sp) Run.reservedTarget) := by
  unfold Run.rejectReserved
  rw [Identifier.isReserved_spelledTarget]
  split
  · next hreserved =>
    -- A reserved name is not spelled anew, and so the error shows it as it is.
    rw [Identifier.spelledTarget, if_pos hreserved]
    exact k.error id rfl rfl
  · exact k.ret id ()

theorem assign {name name' : Identifier} (hname : Text.fold name'.name = Text.fold name.name)
    (hdesignator : name'.designator? = name.designator?)
    (hlocation : name'.location = name.location) (v : Value) (location : Location) :
    k.Follows id (Run.assign name v location)
      (Run.assign name' (v.spelled k.sp) location) := by
  unfold Run.assign
  rw [hdesignator, hlocation, Value.kind_spelled]
  cases name.designator? with
  | none => exact k.bindLocal hname hlocation v
  | some designator =>
    dsimp only
    rw [Value.coerceForDesignator?_spelled]
    cases v.coerceForDesignator? (.ofDesignator designator) with
    | none => exact k.error id rfl rfl
    | some w => exact k.bindLocal hname hlocation w

theorem declare (name : Identifier) (body : Procedure) :
    k.Follows id (Run.declare name body) (Run.declare name (body.spelled k.sp)) := by
  have reject : k.Follows id (Run.rejectReserved name Run.reservedFunction)
      (Run.rejectReserved name Run.reservedFunction) := by
    unfold Run.rejectReserved
    split
    · exact k.error id rfl rfl
    · exact k.ret id ()
  have hredeclared (previous : Location) :
      Run.redeclared name (body.spelled k.sp) previous = Run.redeclared name body previous := by
    unfold Run.redeclared
    rw [Procedure.location_spelled]
  unfold Run.declare
  rw [Procedure.location_spelled]
  refine k.bind reject fun _ => ?_
  have seen : k.Follows (Scopes.spelled k.sp) (Routine.view Session.scopes)
      (Routine.view Session.scopes) := k.view fun _ => rfl
  refine k.bind seen fun scopes => ?_
  rw [Scopes.has_spelled, show (scopes.spelled k.sp).definedAt? name.name =
    scopes.definedAt? name.name from rfl]
  split
  · split
    · split
      · exact k.ret id ()
      · rw [hredeclared]
        exact k.error id rfl rfl
    · exact k.ret id ()
  · exact k.modifyScopes fun s => (s.spelled_declare name body).symm

theorem stepped (op : IncrementOp) (v : Value) (location : Location) :
    k.Gives (Evaluator.stepped op v location) (Evaluator.stepped op (v.spelled k.sp) location) := by
  unfold Evaluator.stepped
  obtain ⟨operator, word⟩ := Evaluator.stepOperator op
  have hresult : (v.spelled k.sp).arithmetic operator (.integer 1) =
      v.arithmetic operator (.integer 1) := Value.arithmetic_spelled _ v (.integer 1)
  dsimp only
  rw [hresult, Value.isNumber_spelled, Value.kind_spelled]
  split
  · next w hw _ => exact k.plain (Value.isPlain_arithmetic hw)
  · exact k.error _ rfl rfl

theorem stepCounter (counter : Identifier) (step : Value) (location : Location) :
    k.Follows id (Evaluator.stepCounter counter step location)
      (Evaluator.stepCounter (counter.spelled k.sp) (step.spelled k.sp) location) := by
  refine k.bind (k.lookup counter) fun current => ?_
  dsimp only
  rw [Value.unbox_spelled, Value.arithmetic_spelled, Value.kind_spelled, Value.kind_spelled]
  split
  · next w hw =>
    have hplain : w.spelled k.sp = w := Value.spelled_of_isPlain (Value.isPlain_arithmetic hw)
    have assigned : k.Follows id (Run.assign counter w location)
        (Run.assign (counter.spelled k.sp) (w.spelled k.sp) location) :=
      k.assign counter.fold_spelled counter.designator?_spelled rfl w location
    rwa [hplain] at assigned
  · exact k.error _ rfl rfl

/-! ## Loops, `print` and errors, without their parts -/

theorem takeResume : k.Follows id Evaluator.takeResume Evaluator.takeResume := by
  unfold Evaluator.takeResume
  rw [Routine.change_eq]
  refine k.bind (k.look fun _ => rfl) fun n => ?_
  exact k.bind (k.update (fun _ => ⟨rfl, rfl, rfl⟩) fun _ => rfl) fun _ => k.ret id n

theorem searching : k.Follows id Evaluator.searching Evaluator.searching :=
  k.look fun _ => rfl

/-- What follows the search of a loop's body that came to its end. -/
theorem goOn {next next' : Run Unit} (hn : k.Follows id next next') :
    k.Follows id (do if ← Evaluator.searching then return else next)
      (do if ← Evaluator.searching then return else next') := by
  refine k.bind k.searching fun b => ?_
  cases b with
  | true => exact k.ret id ()
  | false => exact hn

theorem bindHelper (b : Builtin) : k.Follows id (Run.bindHelper b) (Run.bindHelper b) := by
  refine k.bind k.freshIdentity fun i => k.modifyScopes fun s => ?_
  rw [Scopes.spelled_bind]
  rfl

theorem caught (e : ScriptError) : k.Gives (Run.caught e) (Run.caught (e.spelled k.sp)) := by
  have hmade (s : Session) : (s.spelled k.sp).heap.newBacktrace (e.spelled k.sp).location
      ((e.spelled k.sp).backtrace.getD (s.spelled k.sp).stack) =
        ((s.heap.newBacktrace e.location (e.backtrace.getD s.stack)).1,
          (s.heap.newBacktrace e.location (e.backtrace.getD s.stack)).2.spelled k.sp) := by
    have hstack : (e.spelled k.sp).backtrace.getD (s.spelled k.sp).stack =
        (e.backtrace.getD s.stack).map (Frame.spelled k.sp) := by
      unfold ScriptError.spelled
      cases e.backtrace <;> rfl
    rw [hstack]
    exact s.heap.newBacktrace_spelled _ _
  unfold Run.caught
  refine k.bind (?_ : k.Gives _ _) fun v => ?_
  · intro s hs
    rw [Routine.change, Routine.change, hmade]
    exact .done (Value.array _) (k.silent (s := s) ⟨rfl, rfl, rfl⟩ hs)
  · rw [← ScriptError.members_spelled]
    exact k.newAssoc _

theorem throwValue (image : α → β) (v : Value) (location : Location) :
    k.Follows image (Run.throwValue v location)
      (Run.throwValue (v.spelled k.sp) location) := by
  have hthrown (s : Session) :
      (Thrown.ofValue (s.spelled k.sp).heap (v.spelled k.sp)).toError location
          (s.spelled k.sp).stack =
        ((Thrown.ofValue s.heap v).toError location s.stack).spelled k.sp := by
    rw [show (s.spelled k.sp).heap = s.heap.spelled k.sp from rfl, Thrown.ofValue_spelled]
    rfl
  exact k.bind (k.view hthrown) fun e => k.raise image e

section Nested

variable {ev ev' : Evaluator} (h : k.Related ev ev')
include h

/-! ## Assignments -/

theorem assignment (name : Identifier) (value : Expr) :
    k.Follows id (ev.assignment name value)
      (ev'.assignment (name.spelledTarget k.sp) (value.spelled k.sp)) := by
  refine k.bind (k.rejectTarget name) fun _ => ?_
  refine k.bind (h.evaluate value) fun v => ?_
  rw [Expr.location_spelled]
  exact k.assign name.fold_spelledTarget name.designator?_spelledTarget
    name.location_spelledTarget v value.location

theorem sizes (total : Nat) (dimensions : List Expr) :
    k.Follows id (ev.sizes total dimensions)
      (ev'.sizes total (Expr.spelledAll k.sp dimensions)) := by
  induction dimensions generalizing total with
  | nil => exact k.ret id []
  | cons dimension rest ih =>
    refine k.bind (h.evaluate dimension) fun v => ?_
    rw [Value.unbox_spelled, Value.toInt64?_spelled, Expr.location_spelled]
    split
    · exact k.fault _ _ _
    · next highest =>
      dsimp only
      split
      · exact k.fault _ _ _
      · exact k.bind (ih _) fun more => k.ret id (_ :: more)

theorem dim (name : Identifier) (dimensions : List Expr) :
    k.Follows id (ev.dim name dimensions)
      (ev'.dim (name.spelledTarget k.sp) (Expr.spelledAll k.sp dimensions)) := by
  refine k.bind (k.rejectTarget name) fun _ => ?_
  refine k.bind (k.sizes h 1 dimensions) fun found => ?_
  refine k.bind (k.allocate (Heap.newGrid_spelled found)) fun v => ?_
  exact k.bindLocal name.fold_spelledTarget name.location_spelledTarget v

theorem dottedSet (object : Expr) (name : Identifier) (v : Value) :
    k.Follows id (ev.dottedSet object name v)
      (ev'.dottedSet (object.spelled k.sp) (name.spelled k.sp) (v.spelled k.sp)) := by
  refine k.bind (h.evaluate object) fun target => ?_
  cases target with
  | assoc r =>
    refine k.modifyAssoc r fun a => ?_
    rw [AssocArray.spelled_set]
    exact AssocArray.set_spell _ _ _
  | _ => exact k.fault _ _ _

theorem storeThrough (closing location : Location) (v : Value) (indexes : List Expr)
    (current : Value) :
    k.Follows id (ev.storeThrough closing location v current indexes)
      (ev'.storeThrough closing location (v.spelled k.sp) (current.spelled k.sp)
        (Expr.spelledAll k.sp indexes)) := by
  induction indexes generalizing current with
  | nil => exact k.ret id ()
  | cons index rest ih =>
    have hlast : (Expr.spelledAll k.sp rest).isEmpty = rest.isEmpty := by
      cases rest <;> rfl
    refine k.bind (k.arrayIndex h index) fun n => ?_
    cases current with
    | array r =>
      dsimp only [Value.spelled, id]
      rw [hlast]
      split
      · split
        · exact k.modifyArray r fun a => (a.spelled_put _ v).symm
        · exact k.fault _ _ _
      · refine k.bind (k.array r) fun a => ?_
        rw [ArrayObject.get_spelled]
        exact ih _
    | _ => exact k.fault _ _ _

theorem indexedSet (object : Expr) (indexes : List Expr) (v : Value)
    (closing location : Location) :
    k.Follows id (ev.indexedSet object indexes v closing location)
      (ev'.indexedSet (object.spelled k.sp) (Expr.spelledAll k.sp indexes) (v.spelled k.sp) closing
        location) := by
  unfold Evaluator.indexedSet
  rw [Expr.location_spelled]
  refine k.bind (h.evaluate object) fun target => ?_
  cases target with
  | assoc r =>
    refine k.bind (k.assocKey h indexes closing) fun key => ?_
    exact k.modifyAssoc r fun a => (a.spelled_set key v true).symm
  | array r => exact k.storeThrough h closing location v indexes (.array r)
  | _ => exact k.fault _ _ _

theorem increment (target : Expr) (op : IncrementOp) (location : Location) :
    k.Follows id (ev.increment target op location)
      (ev'.increment (target.spelled k.sp) op location) := by
  refine k.bind (h.evaluate target) fun v => ?_
  rw [Value.unbox_spelled]
  refine k.bind (k.stepped op v.unbox location) fun w => ?_
  have hlocation : (target.spelled k.sp).location = target.location := target.location_spelled
  cases target with
  | reference name => exact k.bindLocal name.fold_spelled rfl w
  | dottedGet object name => exact k.dottedSet h object name w
  | indexedGet object indexes optional closing location =>
    exact k.indexedSet h object indexes w closing location
  | procedure body =>
    dsimp only [Expr.spelled]
    rw [show (Expr.procedure (body.spelled k.sp)).location = _ from hlocation]
    exact k.fault _ _ _
  | _ => exact k.fault _ _ _

/-! ## Branches and loops -/

theorem holds (condition : Expr) :
    k.Follows id (ev.holds condition) (ev'.holds (condition.spelled k.sp)) := by
  refine k.bind (h.evaluate condition) fun v => ?_
  rw [Value.unbox_spelled,
    show (v.unbox.spelled k.sp).equals (.boolean true) = v.unbox.equals (.boolean true) from
      Value.equals_spelled v.unbox (.boolean true)]
  exact k.ret id _

theorem clauses (elseBranch : Option Block) (branches : List Clause) :
    k.Follows id (ev.clauses elseBranch branches)
      (ev'.clauses (Block.spelledOption k.sp elseBranch) (Clause.spelledAll k.sp branches)) := by
  induction branches with
  | nil =>
    cases elseBranch with
    | none => exact k.ret id ()
    | some block => exact k.executeBlock h block
  | cons clause rest ih =>
    obtain ⟨condition, block⟩ := clause
    refine k.bind (k.holds h condition) fun b => ?_
    cases b with
    | true => exact k.executeBlock h block
    | false => exact ih

theorem stepOf (step : Option Expr) :
    k.Gives (ev.stepOf step) (ev'.stepOf (Expr.spelledOption k.sp step)) := by
  cases step with
  | none => exact k.plain rfl
  | some e =>
    refine k.bind (h.evaluate e) fun v => ?_
    rw [Value.unbox_spelled]
    cases v.unbox with
    | float | double => exact k.plain rfl
    | _ => exact k.ret _ _

theorem inLoop (form : LoopForm) (body : Block) {image : α → β} {ended goOn stop : Run α}
    {ended' goOn' stop' : Run β} (hended : k.Follows image ended ended')
    (hgoOn : k.Follows image goOn goOn') (hstop : k.Follows image stop stop') :
    k.Follows image (ev.inLoop form body ended goOn stop)
      (ev'.inLoop form (body.spelled k.sp) ended' goOn' stop') := by
  refine k.bind (k.attempt (k.executeBlock h body)) fun result => ?_
  cases result with
  | ok _ => exact hended
  | error signal =>
    have hturn : (signal.spelled k.sp).turn? form = signal.turn? form := by
      cases form <;> cases signal <;> rfl
    dsimp only [spelledAttempt]
    rw [hturn]
    rcases signal.turn? form with _ | _ | _
    · exact k.leave image signal
    · exact hstop
    · exact hgoOn

theorem forPass (counter : Identifier) (limit step : Value) (location : Location) (body : Block)
    (_ : Unit) :
    k.Follows (Sum.map id id) (ev.forPass counter limit step location body ())
      (ev'.forPass (counter.spelled k.sp) (limit.spelled k.sp) (step.spelled k.sp) location
        (body.spelled k.sp) ()) := by
  have hpast (current : Value) (ascending : Bool) :
      Evaluator.isPast ascending (current.spelled k.sp) (limit.spelled k.sp) =
        Evaluator.isPast ascending current limit := by
    simp only [Evaluator.isPast, Value.greaterThan_spelled, Value.lessThan_spelled]
  have next : k.Follows (Sum.map id id)
      (do Evaluator.stepCounter counter step location; return (Sum.inl () : Unit ⊕ Unit))
      (do Evaluator.stepCounter (counter.spelled k.sp) (step.spelled k.sp) location
          return (Sum.inl () : Unit ⊕ Unit)) :=
    k.bind (k.stepCounter counter step location) fun _ => k.ret _ (Sum.inl ())
  refine k.bind (k.lookup counter) fun current => ?_
  dsimp only
  rw [Value.isPositive_spelled, Value.unbox_spelled, hpast]
  split
  · exact k.ret _ (Sum.inr ())
  · exact k.inLoop h .counting body next next (k.ret _ (Sum.inr ()))

theorem forLoop (budget : Nat) (counter : Identifier) (start final : Expr) (step : Option Expr)
    (body : Block) (resume : Bool) :
    k.Follows id (ev.forLoop budget counter start final step body resume)
      (ev'.forLoop budget (counter.spelled k.sp) (start.spelled k.sp) (final.spelled k.sp)
        (Expr.spelledOption k.sp step) (body.spelled k.sp) resume) := by
  have hlocation : ((Expr.spelledOption k.sp step).map Expr.location).getD
      (counter.spelled k.sp).location = (step.map Expr.location).getD counter.location := by
    cases step with
    | none => rfl
    | some e => exact e.location_spelled
  unfold Evaluator.forLoop
  rw [hlocation, Expr.location_spelled]
  refine k.bind (k.stepOf h step) fun amount => ?_
  have passes (location : Location) : k.Follows id
      (do Routine.iterate (ev.forPass counter (← ev.evaluate final).unbox amount location body)
            budget ())
      (do Routine.iterate (ev'.forPass (counter.spelled k.sp)
            (← ev'.evaluate (final.spelled k.sp)).unbox (amount.spelled k.sp) location
            (body.spelled k.sp)) budget ()) := by
    refine k.bind (h.evaluate final) fun limit => ?_
    rw [Value.unbox_spelled]
    exact k.iterate (k.forPass h counter limit.unbox amount location body) budget ()
  cases resume with
  | true => exact k.bind (k.stepCounter counter amount _) fun _ => passes _
  | false =>
    refine k.bind (h.evaluate start) fun v => ?_
    refine k.bind (k.assign counter.fold_spelled counter.designator?_spelled rfl v _) fun _ => ?_
    exact passes _

theorem forEachPasses (item : Identifier) (body : Block) (skip index : Nat)
    (elements : List Value) :
    k.Follows id (ev.forEachPasses item body skip index elements)
      (ev'.forEachPasses (item.spelled k.sp) (body.spelled k.sp) skip index
        (elements.map (Value.spelled k.sp))) := by
  induction elements generalizing index with
  | nil => exact k.ret id ()
  | cons element rest ih =>
    refine k.bind (k.bindLocal item.fold_spelled rfl element) fun _ => ?_
    split
    · exact ih _
    · refine k.bind (k.attempt (k.executeBlock h body)) fun result => ?_
      cases result with
      | ok _ => exact ih _
      | error signal =>
        cases signal with
        | continueFor => exact ih _
        | exitFor => exact k.ret id ()
        | goto label location =>
          refine k.bind (k.update (fun _ => ⟨rfl, rfl, rfl⟩) fun _ => rfl) fun _ => ?_
          exact k.leave id (.goto label location)
        | _ => exact k.leave id _

theorem forEach (item : Identifier) (target : Expr) (body : Block) (resume : Bool) :
    k.Follows id (ev.forEach item target body resume)
      (ev'.forEach (item.spelled k.sp) (target.spelled k.sp) (body.spelled k.sp) resume) := by
  refine k.bind (h.evaluate target) fun collection => ?_
  refine k.bind (k.view fun s => s.heap.elements?_spelled collection) fun found => ?_
  cases found with
  | none => exact k.complain _
  | some elements =>
    have passes (skip : Nat) := k.forEachPasses h item body skip 0 elements
    cases resume with
    | false => exact passes 0
    | true => exact k.bind k.takeResume fun skip => passes skip

theorem whilePass (condition : Expr) (body : Block) (_ : Unit) :
    k.Follows (Sum.map id id) (ev.whilePass condition body ())
      (ev'.whilePass (condition.spelled k.sp) (body.spelled k.sp) ()) := by
  refine k.bind (k.holds h condition) fun b => ?_
  cases b with
  | false => exact k.ret _ (Sum.inr ())
  | true =>
    exact k.inLoop h .conditional body (k.ret _ (Sum.inl ())) (k.ret _ (Sum.inl ()))
      (k.ret _ (Sum.inr ()))

theorem whileLoop (budget : Nat) (condition : Expr) (body : Block) :
    k.Follows id (ev.whileLoop budget condition body)
      (ev'.whileLoop budget (condition.spelled k.sp) (body.spelled k.sp)) :=
  k.iterate (k.whilePass h condition body) budget ()

theorem printItem (item : PrintItem) :
    k.Follows id (ev.printItem item) (ev'.printItem (item.spelled k.sp)) := by
  cases item with
  | comma => exact k.bind (k.look fun _ => rfl) fun column => k.ret id _
  | semicolon => exact k.ret id ""
  | expression e =>
    exact k.bind (h.evaluate e) fun v => k.view fun s => Run.printed_spelled s.heap v

/-! ## Throwing and catching -/

theorem tryCatch (tryBlock : Block) (binding : Identifier) (catchBlock : Block) :
    k.Follows id (ev.tryCatch tryBlock binding catchBlock)
      (ev'.tryCatch (tryBlock.spelled k.sp) (binding.spelled k.sp)
        (catchBlock.spelled k.sp)) := by
  have handled (e : ScriptError) : k.Follows id (ev.catchError binding catchBlock e)
      (ev'.catchError (binding.spelled k.sp) (catchBlock.spelled k.sp) (e.spelled k.sp)) := by
    refine k.bind (k.caught e) fun v => ?_
    refine k.bind (k.bindLocal binding.fold_spelled rfl v) fun _ => ?_
    exact k.executeBlock h catchBlock
  intro s hs
  have hmode {t : Session} (b : Bool) (ht : k.fit t) : k.fit (t.withTry b) :=
    k.silent (s := t) ⟨rfl, rfl, rfl⟩ ht
  have hends : k.Ends id (ev.executeBlock tryBlock (s.withTry true))
      (ev'.executeBlock (tryBlock.spelled k.sp) ((s.spelled k.sp).withTry true)) :=
    k.executeBlock h tryBlock (s.withTry true) (hmode true hs)
  rw [Evaluator.tryCatch, Evaluator.tryCatch, Run.catching, Run.catching]
  generalize ev.executeBlock tryBlock (s.withTry true) = o,
    ev'.executeBlock (tryBlock.spelled k.sp) ((s.spelled k.sp).withTry true) = o' at hends ⊢
  cases hends with
  | gaveUp hgive => exact .gaveUp hgive
  | done _ ht => exact .done () (hmode _ ht)
  | exit signal ht =>
    cases signal with
    | error e => exact handled e _ (hmode _ ht)
    | _ => exact .exit _ (hmode _ ht)
  | exhausted => exact .exhausted

/-! ## Looking for a label -/

theorem searchBlocks (blocks : List Block) :
    k.Follows id (ev.searchBlocks blocks) (ev'.searchBlocks (blocks.map (Block.spelled k.sp))) := by
  induction blocks with
  | nil => exact k.ret id ()
  | cons block rest ih =>
    refine k.bind (k.executeBlock h block) fun _ => ?_
    refine k.bind k.searching fun b => ?_
    cases b with
    | true => exact ih
    | false => exact k.ret id ()

theorem searchLoop (form : LoopForm) (body : Block) {next next' : Run Unit}
    (hn : k.Follows id next next') :
    k.Follows id (ev.searchLoop form body next)
      (ev'.searchLoop form (body.spelled k.sp) next') :=
  k.inLoop h form body (k.goOn hn) hn (k.ret id ())

theorem search (budget : Nat) (label : String) (statement : Statement) :
    k.Follows id (ev.search budget label statement)
      (ev'.search budget label (statement.spelled k.sp)) := by
  cases statement with
  | label name =>
    unfold Evaluator.search
    dsimp only [Statement.spelled]
    rw [Identifier.fold_spelled]
    split
    · exact k.modifyScopes fun _ => rfl
    · exact k.ret id ()
  | block body => exact k.executeBlock h body
  | conditional condition thenBranch elseIfs elseBranch location =>
    have hblocks : Block.spelled k.sp thenBranch ::
        (Clause.spelledAll k.sp elseIfs).map Clause.block ++
          (Block.spelledOption k.sp elseBranch).toList =
        (thenBranch :: elseIfs.map Clause.block ++ elseBranch.toList).map
          (Block.spelled k.sp) := by
      have hclauses : (Clause.spelledAll k.sp elseIfs).map Clause.block =
          (elseIfs.map Clause.block).map (Block.spelled k.sp) := by
        induction elseIfs with
        | nil => rfl
        | cons clause rest ih =>
          cases clause
          exact congrArg (_ :: ·) ih
      rw [hclauses, List.cons_append, List.cons_append, List.map_cons, List.map_append]
      cases elseBranch <;> rfl
    have searched := k.searchBlocks h
      (thenBranch :: elseIfs.map Clause.block ++ elseBranch.toList)
    rw [← hblocks] at searched
    exact searched
  | tryCatch tryBlock binding catchBlock location => exact k.executeBlock h catchBlock
  | forLoop counter start final step body location =>
    exact k.searchLoop h .counting body (k.forLoop h budget counter start final step body true)
  | forEach item target body location =>
    exact k.searchLoop h .counting body (k.forEach h item target body true)
  | whileLoop condition body location =>
    exact k.searchLoop h .conditional body (k.whileLoop h budget condition body)
  | _ => exact k.ret id ()

/-! ## The rules -/

/-- What a statement does, given what a `print` does. -/
theorem perform (budget : Nat) (statement : Statement)
    (hprint : ∀ items location, statement = .print items location →
      k.Follows id (ev.print items) (ev'.print (PrintItem.spelledAll k.sp items))) :
    k.Follows id (ev.perform budget statement)
      (ev'.perform budget (statement.spelled k.sp)) := by
  cases statement with
  | expression value => exact k.bind (h.evaluate value) fun _ => k.ret id ()
  | assignment name value location => exact k.assignment h name value
  | dim name dimensions location => exact k.dim h name dimensions
  | block body => exact k.executeBlock h body
  | exitFor location => exact k.leave id (.exitFor location)
  | exitWhile location => exact k.leave id (.exitWhile location)
  | continueFor location => exact k.leave id (.continueFor location)
  | continueWhile location => exact k.leave id (.continueWhile location)
  | declaration name body => exact k.declare name body
  | conditional condition thenBranch elseIfs elseBranch location =>
    exact k.clauses h elseBranch (⟨condition, thenBranch⟩ :: elseIfs)
  | increment target op location => exact k.increment h target op location
  | print items location => exact hprint items location rfl
  | goto label location => exact k.leave id (.goto label.name location)
  | label name => exact k.ret id ()
  | returning value location =>
    have returned : k.Follows (Option.map (Value.spelled k.sp)) (ev.returnValue value)
        (ev'.returnValue (Expr.spelledOption k.sp value)) := by
      cases value with
      | none => exact k.ret _ none
      | some e => exact k.bind (h.evaluate e) fun v => k.ret _ (some v)
    exact k.bind returned fun v => k.leave id (.returning v location)
  | ending location => exact k.leave id (.ending location)
  | stopping location =>
    exact k.bind (k.debugMode true) fun _ => k.checkpoint (.stopping location)
  | forLoop counter start final step body location =>
    exact k.forLoop h budget counter start final step body false
  | forEach item target body location => exact k.forEach h item target body false
  | whileLoop condition body location => exact k.whileLoop h budget condition body
  | dottedSet object name value location =>
    exact k.bind (h.evaluate value) fun v => k.dottedSet h object name v
  | indexedSet object indexes value closing location =>
    exact k.bind (h.evaluate value) fun v => k.indexedSet h object indexes v closing location
  | library path location => exact k.ret id ()
  | tryCatch tryBlock binding catchBlock location =>
    exact k.tryCatch h tryBlock binding catchBlock
  | throwing value location =>
    exact k.bind (h.evaluate value) fun v => k.throwValue id v location

theorem around (budget : Nat) (statement : Statement) {x y : Run Unit} (hxy : k.Follows id x y) :
    k.Follows id (ev.around budget statement x)
      (ev'.around budget (statement.spelled k.sp) y) := by
  have hstop : Evaluator.isStop (statement.spelled k.sp) = Evaluator.isStop statement := by
    cases statement <;> rfl
  refine k.bind (k.look fun _ => rfl) fun pending => ?_
  cases pending with
  | some label => exact k.search h budget label statement
  | none =>
    have approached : k.Follows id (Evaluator.approach statement)
        (Evaluator.approach (statement.spelled k.sp)) := by
      unfold Evaluator.approach
      rw [hstop, Statement.location_spelled]
      split
      · exact k.bind (k.checkpoint statement) fun _ => k.moveTo statement.location
      · exact k.moveTo statement.location
    exact k.bind approached fun _ => hxy

/-! ## Scripts -/

theorem callEntry (budget : Nat) (args : List Value) :
    k.Gives (Evaluator.callEntry (ev.invoke budget) args)
      (Evaluator.callEntry (ev'.invoke budget) (args.map (Value.spelled k.sp))) := by
  refine k.bind (k.view Session.entry?_spelled) fun entry => ?_
  cases entry with
  | none => exact k.plain rfl
  | some c =>
    have hgiven : (if c.takesArguments then args.map (Value.spelled k.sp) else []) =
        (if c.takesArguments then args else []).map (Value.spelled k.sp) := by
      split <;> rfl
    dsimp only [Option.map_some]
    rw [Callable.takesArguments_spelled, Callable.target_spelled, Target.location?_spelled, hgiven]
    exact k.call h budget c _ none _ _

theorem script (budget : Nat) (statements : List Statement) (args : List Value) :
    k.Follows (Finish.spelled k.sp) (ev.script budget statements args)
      (ev'.script budget (Statement.spelledAll k.sp statements)
        (args.map (Value.spelled k.sp))) := by
  have program : k.Gives (ev.program (ev.invoke budget) statements args)
      (ev'.program (ev'.invoke budget) (Statement.spelledAll k.sp statements)
        (args.map (Value.spelled k.sp))) := by
    refine k.bind (k.handle (k.executeAll h statements) (k.crash id)) fun _ => ?_
    refine k.bind (k.look fun _ => rfl) fun b => ?_
    cases b with
    | true => exact k.callEntry h budget args
    | false => exact k.plain rfl
  refine k.handle (k.bind program fun v => k.ret _ (Finish.mk v .completed)) fun signal => ?_
  have escapes := k.escape (Finish.spelled k.sp) signal
  cases signal with
  | returning value? location =>
    have hvalue : (value?.map (Value.spelled k.sp)).getD .invalid =
        (value?.getD .invalid).spelled k.sp := by
      cases value? <;> rfl
    dsimp only [Run.finish, Signal.spelled]
    rw [hvalue]
    exact k.ret _ (Finish.mk _ _)
  | ending location => exact k.ret _ (Finish.mk .invalid .endStatement)
  | debugExit location => exact k.ret _ (Finish.mk .invalid .debugExit)
  | _ => exact escapes

end Nested

end Mirror

end BrightScript
