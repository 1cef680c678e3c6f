import BrightScript.Proofs.Steady

/-!
# Disciplines for the variables of a call

A call has variables of its own, which only the statements of its body bind, and its parameters. A
discipline says which values fit which variable, and which constructs may bind a name so that the
value they bind always fits. In a call whose body keeps to the discipline all variables fit whenever
a statement of the body is started, whatever the functions it calls are like: evaluation of an
expression does not touch the variables of the call it stands in.

To say so of every statement of a body, its execution is supervised (`Evaluator.supervised`): a
statement that is started in a session which fails a check is replaced by anything else. A body that
keeps to the discipline runs the same with and without.
-/

namespace BrightScript

variable {body : Block} {name counter : Identifier} {st : Statement} {v : Value}
  {statements : List Statement} {args : List Value}

/-- The constructs that bind a variable, parameters apart. -/
inductive Binder where
  | assigned
  | counted
  | stepped
  | dimmed
  | walked
  | caught
  deriving DecidableEq, Repr

namespace Statement

/-- The blocks of a statement, which run in the call that the statement runs in. -/
def blocks : Statement → List Block
  | .block body => [body]
  | .conditional _ thenBranch elseIfs elseBranch _ =>
    thenBranch :: elseIfs.map Clause.block ++ elseBranch.toList
  | .tryCatch tryBlock _ catchBlock _ => [tryBlock, catchBlock]
  | .forLoop _ _ _ _ body _ | .forEach _ _ body _ | .whileLoop _ body _ => [body]
  | _ => []

section Conditional

variable {condition : Expr} {thenBranch block : Block} {elseIfs : List Clause}
  {elseBranch : Option Block} {location : Location}

theorem else_mem_blocks (h : block ∈ elseBranch) :
    block ∈ (conditional condition thenBranch elseIfs elseBranch location).blocks :=
  .tail _ (List.mem_append_right _ (Option.mem_toList.2 h))

theorem clause_mem_blocks {clause : Clause} (h : clause ∈ ⟨condition, thenBranch⟩ :: elseIfs) :
    clause.block ∈ (conditional condition thenBranch elseIfs elseBranch location).blocks := by
  obtain rfl | h := List.mem_cons.1 h
  · exact .head _
  · exact .tail _ (List.mem_append_left _ (List.mem_map_of_mem h))

end Conditional

def binds? : Statement → Option (Binder × Identifier)
  | .assignment name _ _ => some (.assigned, name)
  | .forLoop counter _ _ _ _ _ => some (.counted, counter)
  | .increment (.reference name) _ _ => some (.stepped, name)
  | .dim name _ _ => some (.dimmed, name)
  | .forEach item _ _ _ => some (.walked, item)
  | .tryCatch _ binding _ _ => some (.caught, binding)
  | _ => none

/-- A statement and all statements below it bind only what they may. -/
inductive Follows (allows : Binder → Identifier → Prop) : Statement → Prop
  | intro {statement : Statement}
      (binds : ∀ binder name, statement.binds? = some (binder, name) → allows binder name)
      (below : ∀ block ∈ statement.blocks, ∀ st ∈ block.statements, Follows allows st) :
      Follows allows statement

variable {allows : Binder → Identifier → Prop}

theorem Follows.allowed {statement : Statement} (h : statement.Follows allows) {binder : Binder}
    (hb : statement.binds? = some (binder, name)) : allows binder name := by
  cases h with
  | intro binds _ => exact binds binder name hb

theorem Follows.inner {statement : Statement} (h : statement.Follows allows) {block : Block}
    (hblock : block ∈ statement.blocks) : ∀ st ∈ block.statements, st.Follows allows := by
  cases h with
  | intro _ below => exact below block hblock

end Statement

def Identifier.admit? (name : Identifier) (v : Value) : Option Value :=
  match name.designator? with
  | some designator => v.coerceForDesignator? (.ofDesignator designator)
  | none => some v

/-- What binds variables how, such that their values fit. -/
structure Discipline where
  /-- Whether a value fits a variable, which goes by its folded name. -/
  fits : String → Value → Prop
  allows : Binder → Identifier → Prop
  /-- Whether the parameters of a procedure get values that fit. -/
  accepts : Procedure → Prop
  assigned : ∀ {name v w}, allows .assigned name → name.isReserved = false →
    name.admit? v = some w → fits (Text.fold name.name) w
  counted : ∀ {name v w}, allows .counted name → name.admit? v = some w →
    fits (Text.fold name.name) w
  stepped : ∀ {name op v w}, allows .stepped name →
    (Text.fold name.name ≠ "line_num" → fits (Text.fold name.name) v) →
    v.unbox.arithmetic (Evaluator.stepOperator op).1 (.integer 1) = .ok w →
    fits (Text.fold name.name) w
  dimmed : ∀ {name}, allows .dimmed name → name.isReserved = false → ∀ v,
    fits (Text.fold name.name) v
  walked : ∀ {name}, allows .walked name → ∀ v, fits (Text.fold name.name) v
  caught : ∀ {name}, allows .caught name → ∀ v, fits (Text.fold name.name) v
  received : ∀ {body : Procedure} {args coerced : List Value} {i : Nat} {p : Parameter},
    accepts body → body.signature.satisfy? args = some coerced → body.parameters[i]? = some p →
      (∀ v, coerced[i]? = some v → fits p.key v) ∧
      (coerced[i]? = none → p.default? = none → fits p.key .invalid) ∧
      (coerced[i]? = none → ∀ e, p.default? = some e → ∀ n s w t, evaluate n e s = .done w t →
        fits p.key ((w.coerce? p.kind).getD w))

/-! ## Sessions -/

/-- Whether the bindings that all calls share are functions. -/
def Scopes.SharesFunctions (s : Scopes) : Prop :=
  ∀ (key : String) (v : Value), s.modules[key]? = some v ∨ s.globals[key]? = some v →
    ∃ c, v = .function c

theorem Scopes.GrowsTo.sharesFunctions {a b : Scopes} (h : a.GrowsTo b)
    (ha : a.SharesFunctions) : b.SharesFunctions := by
  intro key v hv
  obtain hv | hv := hv
  · obtain hv | ⟨-, body, rfl⟩ := h.added key v hv
    · exact ha key v (.inl hv)
    · exact ⟨_, rfl⟩
  · rw [h.globals] at hv
    exact ha key v (.inr hv)

theorem Scopes.sharesFunctions_new (options : Options) :
    (Session.new options).scopes.SharesFunctions := by
  have step (t : Scopes) (ht : t.SharesFunctions) (b : Builtin) (_ : b ∈ Builtin.globals) :
      (t.defineGlobal b.name (.function (.ofBuiltin b))).SharesFunctions := by
    intro key v hv
    obtain hv | hv := hv
    · exact ht key v (.inl hv)
    · replace hv : (t.globals.insert (Text.fold b.name) (.function (.ofBuiltin b)))[key]? =
        some v := hv
      rw [Std.ExtTreeMap.getElem?_insert] at hv
      split at hv
      · exact ⟨_, (Option.some.inj hv).symm⟩
      · exact ht key v (.inr hv)
  refine List.foldlRecOn Builtin.globals _ (motive := fun t : Scopes => t.SharesFunctions) ?_ step
  intro key v hv
  obtain hv | hv := hv <;> cases hv

theorem Session.BetweenRuns.sharesFunctions {P : Value → Prop} {s : Session}
    (h : s.BetweenRuns P) : s.scopes.SharesFunctions := by
  obtain ⟨options, hlater⟩ := h.later
  exact hlater.growsTo.sharesFunctions (Scopes.sharesFunctions_new options)

namespace Discipline

/-- All variables of the current call fit. -/
structure Ok (d : Discipline) (s : Session) : Prop where
  locals : ∀ (key : String) (v : Value), s.locals[key]? = some v → d.fits key v
  shared : s.scopes.SharesFunctions

variable {d : Discipline} {s t : Session}

theorem Ok.of_locals (hs : d.Ok s) (hlocals : t.locals = s.locals)
    (hgrows : s.scopes.GrowsTo t.scopes) : d.Ok t := by
  refine ⟨?_, hgrows.sharesFunctions hs.shared⟩
  rw [hlocals]
  exact hs.locals

theorem Ok.insert (hs : d.Ok s) {key : String} (hv : d.fits key v)
    (hlocals : t.locals = s.locals.insert key v) (hgrows : s.scopes.GrowsTo t.scopes) : d.Ok t := by
  refine ⟨?_, hgrows.sharesFunctions hs.shared⟩
  intro other w hw
  rw [hlocals, Std.ExtTreeMap.getElem?_insert] at hw
  split at hw
  · next heq =>
    cases hw
    rwa [← Std.LawfulEqCmp.eq_of_compare heq]
  · exact hs.locals other w hw

/-- A number that a name stands for is the value of a variable, but for the current line. -/
theorem Ok.fits_get (hs : d.Ok s) (hline : Text.fold name.name ≠ "line_num") {m : Number}
    (hnumber : Number.ofValue? (s.scopes.get name).unbox = some m) :
    d.fits (Text.fold name.name) (s.scopes.get name) := by
  by_cases hm : Text.fold name.name = "m"
  · simp [Scopes.get, Scopes.get?, hm, Number.ofValue?, Value.unbox] at hnumber
  cases hlocal : s.scopes.active.locals[Text.fold name.name]? with
  | some v =>
    have hv : s.scopes.get name = v := by
      simp [Scopes.get, Scopes.get?, hm, hline, hlocal]
    rw [hv]
    exact hs.locals _ _ hlocal
  | none =>
    -- What is found elsewhere is a function or nothing.
    exfalso
    cases hmodule : s.scopes.modules[Text.fold name.name]? with
    | some v =>
      obtain ⟨c, rfl⟩ := hs.shared _ _ (.inl hmodule)
      simp [Scopes.get, Scopes.get?, hm, hline, hlocal, hmodule, Number.ofValue?,
        Value.unbox] at hnumber
    | none =>
      cases hglobal : s.scopes.globals[Text.fold name.name]? with
      | some v =>
        obtain ⟨c, rfl⟩ := hs.shared _ _ (.inr hglobal)
        simp [Scopes.get, Scopes.get?, hm, hline, hlocal, hmodule, hglobal, Number.ofValue?,
          Value.unbox] at hnumber
      | none =>
        simp [Scopes.get, Scopes.get?, hm, hline, hlocal, hmodule, hglobal, Number.ofValue?,
          Value.unbox] at hnumber

end Discipline

/-! ## Supervised execution -/

/-- Execution under a budget in which a statement that is started in a session which fails a check
is replaced by something else. Only statements of the current call are supervised. -/
def Evaluator.supervise (check : Session → Prop) [DecidablePred check]
    (otherwise : Statement → Run Unit) : (n : Nat) → Statement → Run Unit
  | 0 => BrightScript.execute 0
  | n + 1 => fun st s =>
    if check s then (executing n (supervise check otherwise n)).statement n st s
    else otherwise st s

/-- Evaluation under a budget, with the statements of the current call supervised. -/
def Evaluator.supervised (check : Session → Prop) [DecidablePred check]
    (otherwise : Statement → Run Unit) (n : Nat) : Evaluator :=
  executing n (supervise check otherwise n)

/-! ## Runs that keep to a discipline -/

namespace Discipline

/-- Two runs that are the same where all variables fit, and after which all variables fit. -/
def Keeps (d : Discipline) {α : Type} (x x' : Run α) : Prop :=
  ∀ s, d.Ok s → x s = x' s ∧ ∀ t, (x s).state? = some t → d.Ok t

variable {d : Discipline} {α β : Type}

namespace Keeps

theorem steady {x : Run α} (hx : Run.Steady x) : d.Keeps x x := by
  intro s hs
  refine ⟨rfl, fun t ht => ?_⟩
  obtain ⟨hlocals, hgrows⟩ := hx s t ht
  exact hs.of_locals hlocals hgrows

theorem pure (a : α) : d.Keeps (Pure.pure a) (Pure.pure a) :=
  steady (.pure a)

theorem bind {x x' : Run α} {f f' : α → Run β} (hx : d.Keeps x x')
    (hf : ∀ a, d.Keeps (f a) (f' a)) : d.Keeps (x >>= f) (x' >>= f') := by
  intro s hs
  obtain ⟨heq, hends⟩ := hx s hs
  rw [Routine.bind_apply, Routine.bind_apply, ← heq]
  cases hxs : x s with
  | done a t =>
    rw [hxs] at hends
    exact hf a t (hends t rfl)
  | exit signal t =>
    rw [hxs] at hends
    exact ⟨rfl, hends⟩
  | exhausted => exact ⟨rfl, fun t ht => (by cases ht)⟩

theorem attempt {x x' : Run α} (hx : d.Keeps x x') :
    d.Keeps (Routine.attempt x) (Routine.attempt x') := by
  intro s hs
  obtain ⟨heq, hends⟩ := hx s hs
  rw [Routine.attempt, Routine.attempt, ← heq]
  cases hxs : x s with
  | done a t =>
    rw [hxs] at hends
    exact ⟨rfl, hends⟩
  | exit signal t =>
    rw [hxs] at hends
    exact ⟨rfl, hends⟩
  | exhausted => exact ⟨rfl, fun t ht => (by cases ht)⟩

theorem crashing {x x' : Run α} (hx : d.Keeps x x') :
    d.Keeps (Routine.handle x Run.crash) (Routine.handle x' Run.crash) := by
  intro s hs
  obtain ⟨heq, hends⟩ := hx s hs
  rw [Routine.handle, Routine.handle, ← heq]
  cases hxs : x s with
  | done a t =>
    rw [hxs] at hends
    exact ⟨rfl, hends⟩
  | exit signal t =>
    rw [hxs] at hends
    exact steady (.crash signal) t (hends t rfl)
  | exhausted => exact ⟨rfl, fun t ht => (by cases ht)⟩

theorem iterate {step step' : β → Run (β ⊕ α)} (hstep : ∀ b, d.Keeps (step b) (step' b))
    (budget : Nat) (b : β) :
    d.Keeps (Routine.iterate step budget b) (Routine.iterate step' budget b) := by
  induction budget generalizing b with
  | zero => exact fun s _ => ⟨rfl, fun t ht => (by cases ht)⟩
  | succ budget ih =>
    rw [Routine.iterate_succ_eq, Routine.iterate_succ_eq]
    refine bind (hstep b) fun r => ?_
    cases r with
    | inl b' => exact ih b'
    | inr a => exact pure a

theorem catching {x x' : Run Unit} {handler handler' : ScriptError → Run Unit}
    (hx : d.Keeps x x') (hh : ∀ e, d.Keeps (handler e) (handler' e)) :
    d.Keeps (Run.catching x handler) (Run.catching x' handler') := by
  intro s hs
  have htried : d.Ok (s.withTry true) := ⟨hs.locals, hs.shared⟩
  obtain ⟨heq, hends⟩ := hx (s.withTry true) htried
  rw [Run.catching, Run.catching, ← heq]
  have back (t : Session) (ht : (x (s.withTry true)).state? = some t) :
      d.Ok (t.withTry s.tryMode) := ⟨(hends t ht).locals, (hends t ht).shared⟩
  rcases hxs : x (s.withTry true) with ⟨a, t⟩ | ⟨signal, t⟩ | _
  · rw [hxs] at back
    refine ⟨rfl, fun u hu => ?_⟩
    cases hu
    exact back t rfl
  · rw [hxs] at back
    cases signal with
    | error e => exact hh e _ (back t rfl)
    | _ =>
      refine ⟨rfl, fun u hu => ?_⟩
      cases hu
      exact back t rfl
  · exact ⟨rfl, fun t ht => (by cases ht)⟩

theorem bindLocal (hv : d.fits (Text.fold name.name) v) :
    d.Keeps (Run.bindLocal name v) (Run.bindLocal name v) := by
  intro s hs
  refine ⟨rfl, fun t ht => ?_⟩
  unfold Run.bindLocal at ht
  split at ht
  · obtain ⟨hlocals, hgrows⟩ := Run.Steady.raise _ s t ht
    exact hs.of_locals hlocals hgrows
  · cases ht
    exact hs.insert hv rfl (.ofShared rfl rfl)

theorem assign {location : Location}
    (hv : ∀ w, name.admit? v = some w → d.fits (Text.fold name.name) w) :
    d.Keeps (Run.assign name v location) (Run.assign name v location) := by
  unfold Run.assign
  unfold Identifier.admit? at hv
  split
  · next designator hd =>
    rw [hd] at hv
    dsimp only
    split
    · next w hw => exact bindLocal (hv w hw)
    · exact steady (.raise _)
  · next hd =>
    rw [hd] at hv
    exact bindLocal (hv v rfl)

/-- What comes after a reserved name was refused. -/
theorem unreserved {message : String} {x x' : Run α} (hx : name.isReserved = false → d.Keeps x x') :
    d.Keeps (Run.rejectReserved name message >>= fun _ => x)
      (Run.rejectReserved name message >>= fun _ => x') := by
  cases hname : name.isReserved with
  | true =>
    rw [Run.rejectReserved_bind hname, Run.rejectReserved_bind hname]
    exact steady (.raise _)
  | false => exact bind (steady (.rejectReserved name message)) fun _ => hx hname

end Keeps

/-! ## The rules of statements -/

open Evaluator (executing)

theorem stepCounter (hallowed : d.allows .counted counter) (step : Value) (location : Location) :
    d.Keeps (Evaluator.stepCounter counter step location)
      (Evaluator.stepCounter counter step location) := by
  refine .bind (.steady (.view _)) fun current => ?_
  dsimp only
  split
  · exact .assign fun w hw => d.counted hallowed hw
  · exact .steady (.raise _)

/-- The one rule that looks at the old value of the variable it binds. -/
theorem increment_reference (hallowed : d.allows .stepped name) (op : IncrementOp)
    (location : Location) {n : Nat} {execute execute' : Statement → Run Unit} :
    d.Keeps ((executing n execute).increment (.reference name) op location)
      ((executing n execute').increment (.reference name) op location) := by
  intro s hs
  refine ⟨rfl, fun t ht => ?_⟩
  cases n with
  | zero => cases ht
  | succ n =>
    let moved : Session := { s with location := name.location }
    have hmoved : d.Ok moved := ⟨hs.locals, hs.shared⟩
    let v := s.scopes.get name
    replace ht : ((Evaluator.stepped op v.unbox location >>= Run.bindLocal name) moved).state? =
      some t := ht
    unfold Evaluator.stepped at ht
    dsimp only at ht
    split at ht
    · next w hw _ =>
      have hfits : d.fits (Text.fold name.name) w := by
        refine d.stepped hallowed (fun hline => ?_) hw
        cases hnumber : Number.ofValue? v.unbox with
        | none =>
          rw [Value.arithmetic, hnumber] at hw
          cases hw
        | some m => exact hs.fits_get hline hnumber
      exact (Keeps.bindLocal hfits moved hmoved).2 t ht
    · exact (Keeps.steady (.raise _) moved hmoved).2 t ht

theorem print {n : Nat} (items : List PrintItem) :
    d.Keeps ((Evaluator.ofBudget n).print items) ((Evaluator.ofBudget n).print items) := by
  intro s hs
  refine ⟨rfl, fun t ht => ?_⟩
  have hgrows := Contract.growsTo_of_ends (Contract.sharedScopes.simulation.print
    (Contract.sharedScopes.simulation.ofBudget n) items s trivial).2 ht
  refine ⟨?_, hgrows.sharesFunctions hs.shared⟩
  intro key v hv
  rw [Evaluator.locals_of_print ht] at hv
  split at hv
  · cases hv
  · exact hs.locals key v hv

section Rules

variable {n : Nat} {execute execute' : Statement → Run Unit}
  (hexecute : ∀ st : Statement, st.Follows d.allows → d.Keeps (execute st) (execute' st))
include hexecute

theorem executeAll (h : ∀ st ∈ statements, st.Follows d.allows) :
    d.Keeps ((executing n execute).executeAll statements)
      ((executing n execute').executeAll statements) := by
  induction statements with
  | nil => exact .pure ()
  | cons st rest ih =>
    obtain ⟨hfirst, hrest⟩ := List.forall_mem_cons.1 h
    exact .bind (hexecute st hfirst) fun _ => ih hrest

theorem executeBlock {block : Block} (h : ∀ st ∈ block.statements, st.Follows d.allows) :
    d.Keeps ((executing n execute).executeBlock block)
      ((executing n execute').executeBlock block) :=
  executeAll hexecute h

theorem clauses {elseBranch : Option Block} {branches : List Clause}
    (helse : ∀ block ∈ elseBranch, ∀ st ∈ block.statements, st.Follows d.allows)
    (h : ∀ clause ∈ branches, ∀ st ∈ clause.block.statements, st.Follows d.allows) :
    d.Keeps ((executing n execute).clauses elseBranch branches)
      ((executing n execute').clauses elseBranch branches) := by
  induction branches with
  | nil =>
    cases elseBranch with
    | none => exact .pure ()
    | some block => exact executeBlock hexecute (helse block rfl)
  | cons clause rest ih =>
    obtain ⟨hfirst, hrest⟩ := List.forall_mem_cons.1 h
    refine .bind (.steady (.ofExpression fun sim => sim.holds (sim.ofBudget n) _)) fun b => ?_
    cases b with
    | true => exact executeBlock hexecute hfirst
    | false => exact ih hrest

theorem inLoop (form : LoopForm) (hbody : ∀ st ∈ body.statements, st.Follows d.allows)
    {α : Type} {ended ended' goOn goOn' stop stop' : Run α} (hended : d.Keeps ended ended')
    (hgoOn : d.Keeps goOn goOn') (hstop : d.Keeps stop stop') :
    d.Keeps ((executing n execute).inLoop form body ended goOn stop)
      ((executing n execute').inLoop form body ended' goOn' stop') := by
  refine .bind (.attempt (executeBlock hexecute hbody)) fun result => ?_
  rcases result with signal | _
  · dsimp only
    rcases signal.turn? form with _ | _ | _
    · exact .steady (.leave signal)
    · exact hstop
    · exact hgoOn
  · exact hended

theorem forPass (hallowed : d.allows .counted counter)
    (hbody : ∀ st ∈ body.statements, st.Follows d.allows) (limit step : Value) (location : Location)
    (start : Unit) :
    d.Keeps ((executing n execute).forPass counter limit step location body start)
      ((executing n execute').forPass counter limit step location body start) := by
  have next : d.Keeps
      (do Evaluator.stepCounter counter step location; return (Sum.inl () : Unit ⊕ Unit))
      (do Evaluator.stepCounter counter step location; return (Sum.inl () : Unit ⊕ Unit)) :=
    .bind (stepCounter hallowed step location) fun _ => .pure _
  refine .bind (.steady (.view _)) fun current => ?_
  dsimp only
  split
  · exact .pure _
  · exact inLoop hexecute .counting hbody next next (.pure _)

theorem forLoop (hallowed : d.allows .counted counter)
    (hbody : ∀ st ∈ body.statements, st.Follows d.allows) (budget : Nat) (start final : Expr)
    (step : Option Expr) (resume : Bool) :
    d.Keeps ((executing n execute).forLoop budget counter start final step body resume)
      ((executing n execute').forLoop budget counter start final step body resume) := by
  have amounts : Run.Steady ((Evaluator.ofBudget n).stepOf step) :=
    .ofExpression fun sim => sim.stepOf (sim.ofBudget n) step
  refine .bind (.steady amounts) fun amount => ?_
  have passes (location : Location) : d.Keeps
      (do Routine.iterate ((executing n execute).forPass counter
            (← BrightScript.evaluate n final).unbox amount location body) budget ())
      (do Routine.iterate ((executing n execute').forPass counter
            (← BrightScript.evaluate n final).unbox amount location body) budget ()) := by
    refine .bind (.steady (.evaluate n final)) fun limit => ?_
    exact .iterate (forPass hexecute hallowed hbody _ _ _) budget ()
  cases resume with
  | true => exact .bind (stepCounter hallowed _ _) fun _ => passes _
  | false =>
    refine .bind (.steady (.evaluate n start)) fun v => ?_
    exact .bind (.assign fun w hw => d.counted hallowed hw) fun _ => passes _

theorem forEachPasses {item : Identifier} (hallowed : d.allows .walked item)
    (hbody : ∀ st ∈ body.statements, st.Follows d.allows) (skip index : Nat)
    (elements : List Value) :
    d.Keeps ((executing n execute).forEachPasses item body skip index elements)
      ((executing n execute').forEachPasses item body skip index elements) := by
  induction elements generalizing index with
  | nil => exact .pure ()
  | cons element rest ih =>
    refine .bind (.bindLocal (d.walked hallowed element)) fun _ => ?_
    split
    · exact ih _
    · refine .bind (.attempt (executeBlock hexecute hbody)) fun result => ?_
      rcases result with signal | _
      · cases signal with
        | continueFor => exact ih _
        | exitFor => exact .pure ()
        | goto label location =>
          exact .bind (.steady (.modify fun _ => rfl)) fun _ => .steady (.leave _)
        | _ => exact .steady (.leave _)
      · exact ih _

theorem forEach {item : Identifier} (hallowed : d.allows .walked item)
    (hbody : ∀ st ∈ body.statements, st.Follows d.allows) (target : Expr) (resume : Bool) :
    d.Keeps ((executing n execute).forEach item target body resume)
      ((executing n execute').forEach item target body resume) := by
  refine .bind (.steady (.evaluate n target)) fun collection => ?_
  refine .bind (.steady (.view _)) fun found => ?_
  cases found with
  | none => exact .steady (.modify fun _ => rfl)
  | some elements =>
    have passes (skip : Nat) := forEachPasses hexecute (n := n) hallowed hbody skip 0 elements
    cases resume with
    | false => exact passes 0
    | true => exact .bind (.steady (.change fun _ => rfl)) fun skip => passes skip

theorem whileLoop (hbody : ∀ st ∈ body.statements, st.Follows d.allows) (budget : Nat)
    (condition : Expr) :
    d.Keeps ((executing n execute).whileLoop budget condition body)
      ((executing n execute').whileLoop budget condition body) := by
  refine .iterate (fun _ => ?_) budget ()
  refine .bind (.steady (.ofExpression fun sim => sim.holds (sim.ofBudget n) condition)) fun b => ?_
  cases b with
  | false => exact .pure _
  | true => exact inLoop hexecute .conditional hbody (.pure _) (.pure _) (.pure _)

theorem tryCatch {tryBlock catchBlock : Block} {binding : Identifier}
    (hallowed : d.allows .caught binding)
    (htry : ∀ st ∈ tryBlock.statements, st.Follows d.allows)
    (hcatch : ∀ st ∈ catchBlock.statements, st.Follows d.allows) :
    d.Keeps ((executing n execute).tryCatch tryBlock binding catchBlock)
      ((executing n execute').tryCatch tryBlock binding catchBlock) := by
  refine .catching (executeBlock hexecute htry) fun e => ?_
  refine .bind (.steady (.ofExpression fun sim => ?_)) fun v => ?_
  · exact sim.caught trivial fun _ _ => trivial
  · exact .bind (.bindLocal (d.caught hallowed v)) fun _ => executeBlock hexecute hcatch

theorem searchBlocks {blocks : List Block}
    (h : ∀ block ∈ blocks, ∀ st ∈ block.statements, st.Follows d.allows) :
    d.Keeps ((executing n execute).searchBlocks blocks)
      ((executing n execute').searchBlocks blocks) := by
  induction blocks with
  | nil => exact .pure ()
  | cons block rest ih =>
    obtain ⟨hfirst, hrest⟩ := List.forall_mem_cons.1 h
    refine .bind (executeBlock hexecute hfirst) fun _ => .bind (.steady (.view _)) fun b => ?_
    cases b with
    | true => exact ih hrest
    | false => exact .pure ()

theorem searchLoop (form : LoopForm) (hbody : ∀ st ∈ body.statements, st.Follows d.allows)
    {next next' : Run Unit} (hnext : d.Keeps next next') :
    d.Keeps ((executing n execute).searchLoop form body next)
      ((executing n execute').searchLoop form body next') := by
  refine inLoop hexecute form hbody (.bind (.steady (.view _)) fun b => ?_) hnext (.pure ())
  cases b with
  | true => exact .pure ()
  | false => exact hnext

theorem search (budget : Nat) (label : String) (h : st.Follows d.allows) :
    d.Keeps ((executing n execute).search budget label st)
      ((executing n execute').search budget label st) := by
  cases st with
  | label name =>
    unfold Evaluator.search
    dsimp only
    split
    · exact .steady (.setPending none)
    · exact .pure ()
  | block body => exact executeBlock hexecute (h.inner (.head _))
  | conditional condition thenBranch elseIfs elseBranch location =>
    exact searchBlocks hexecute fun block hblock => h.inner hblock
  | tryCatch tryBlock binding catchBlock location =>
    exact executeBlock hexecute (h.inner (.tail _ (.head _)))
  | forLoop counter start final step body location =>
    have hbody := h.inner (.head _)
    exact searchLoop hexecute .counting hbody (forLoop hexecute (h.allowed rfl) hbody budget _ _ _ true)
  | forEach item target body location =>
    have hbody := h.inner (.head _)
    exact searchLoop hexecute .counting hbody (forEach hexecute (h.allowed rfl) hbody _ true)
  | whileLoop condition body location =>
    have hbody := h.inner (.head _)
    exact searchLoop hexecute .conditional hbody (whileLoop hexecute hbody budget condition)
  | _ => exact .pure ()

theorem perform (budget : Nat) (h : st.Follows d.allows) :
    d.Keeps ((executing n execute).perform budget st)
      ((executing n execute').perform budget st) := by
  cases st with
  | expression value => exact .bind (.steady (.evaluate n value)) fun _ => .pure ()
  | assignment name value location =>
    refine .unreserved fun hname => .bind (.steady (.evaluate n value)) fun v => ?_
    exact .assign fun w hw => d.assigned (h.allowed rfl) hname hw
  | dim name dimensions location =>
    refine .unreserved fun hname => ?_
    rw [Evaluator.sizes_executing, Evaluator.sizes_executing]
    refine .bind (.steady (.ofExpression fun sim => sim.weaken
      (sim.sizes (sim.ofBudget n) 1 dimensions) fun _ _ => trivial)) fun found => ?_
    refine .bind (.steady (.change fun _ => rfl)) fun grid => ?_
    exact .bindLocal (d.dimmed (h.allowed rfl) hname grid)
  | block body => exact executeBlock hexecute (h.inner (.head _))
  | exitFor | exitWhile | continueFor | continueWhile | goto | ending =>
    exact .steady (.leave _)
  | declaration name body => exact .steady (.declare name body)
  | conditional condition thenBranch elseIfs elseBranch location =>
    refine clauses hexecute (fun block hblock => h.inner ?_) fun clause hclause => h.inner ?_
    · exact Statement.else_mem_blocks hblock
    · exact Statement.clause_mem_blocks hclause
  | increment target op location =>
    have step (v : Value) : Run.Steady (Evaluator.stepped op v.unbox location) :=
      .ofExpression fun sim => sim.stepped op v.unbox location
    cases target with
    | reference name => exact increment_reference (h.allowed rfl) op location
    | dottedGet object name optional place =>
      refine .bind (.steady (.evaluate n _)) fun v => .bind (.steady (step v)) fun w => ?_
      exact .steady (.ofExpression fun sim => sim.dottedSet (sim.ofBudget n) object name trivial)
    | indexedGet object indexes optional closing place =>
      refine .bind (.steady (.evaluate n _)) fun v => .bind (.steady (step v)) fun w => ?_
      dsimp only
      rw [Evaluator.indexedSet_executing, Evaluator.indexedSet_executing]
      exact .steady (.ofExpression fun sim =>
        sim.indexedSet (sim.ofBudget n) object indexes trivial closing place)
    | _ =>
      refine .bind (.steady (.evaluate n _)) fun v => .bind (.steady (step v)) fun w => ?_
      exact .steady (.raise _)
  | print items location =>
    show d.Keeps ((executing n execute).print items)
      ((executing n execute').print items)
    rw [Evaluator.print_executing, Evaluator.print_executing]
    exact print items
  | label | library => exact .pure ()
  | returning value location =>
    refine .bind (.steady (.ofExpression fun sim => ?_)) fun v => .steady (.leave _)
    exact sim.weaken (sim.returnValue (sim.ofBudget n) value) fun _ _ => trivial
  | stopping location =>
    exact .bind (.steady (.modify fun _ => rfl)) fun _ => .steady (.checkpoint _)
  | forLoop counter start final step body location =>
    exact forLoop hexecute (h.allowed rfl) (h.inner (.head _)) budget start final step false
  | forEach item target body location =>
    exact forEach hexecute (h.allowed rfl) (h.inner (.head _)) target false
  | whileLoop condition body location =>
    exact whileLoop hexecute (h.inner (.head _)) budget condition
  | dottedSet object name value location =>
    refine .bind (.steady (.evaluate n value)) fun v => .steady (.ofExpression fun sim => ?_)
    exact sim.dottedSet (sim.ofBudget n) object name trivial
  | indexedSet object indexes value closing location =>
    refine .bind (.steady (.evaluate n value)) fun v => ?_
    rw [Evaluator.indexedSet_executing, Evaluator.indexedSet_executing]
    exact .steady (.ofExpression fun sim =>
      sim.indexedSet (sim.ofBudget n) object indexes trivial closing location)
  | tryCatch tryBlock binding catchBlock location =>
    exact tryCatch hexecute (h.allowed rfl) (h.inner (.head _)) (h.inner (.tail _ (.head _)))
  | throwing value location =>
    refine .bind (.steady (.evaluate n value)) fun v => .steady (.ofExpression fun sim => ?_)
    exact sim.throwValue v location

theorem statement (budget : Nat) (h : st.Follows d.allows) :
    d.Keeps ((executing n execute).statement budget st)
      ((executing n execute').statement budget st) := by
  refine .bind (.steady (.view _)) fun pending => ?_
  cases pending with
  | some label => exact search hexecute budget label h
  | none => exact .bind (.steady (.approach st)) fun _ => perform hexecute budget h

end Rules

/-! ## Supervised runs -/

section Supervised

variable {check : Session → Prop} [DecidablePred check] (hcheck : ∀ s, d.Ok s → check s)
  (otherwise : Statement → Run Unit) (n : Nat)
include hcheck

theorem supervise (h : st.Follows d.allows) :
    d.Keeps (execute n st) (Evaluator.supervise check otherwise n st) := by
  induction n generalizing st with
  | zero => exact fun s _ => ⟨rfl, fun t ht => (by cases ht)⟩
  | succ n ih =>
    intro s hs
    have heq : Evaluator.supervise check otherwise (n + 1) st s =
        (Evaluator.supervised check otherwise n).statement n st s := if_pos (hcheck s hs)
    rw [heq]
    exact statement (fun st hst => ih hst) n h s hs

theorem executeAll_supervised (h : ∀ st ∈ statements, st.Follows d.allows) :
    d.Keeps ((Evaluator.ofBudget n).executeAll statements)
      ((Evaluator.supervised check otherwise n).executeAll statements) :=
  executeAll (fun _ hst => supervise hcheck otherwise n hst) h

theorem runBody_supervised {body : Procedure}
    (h : ∀ st ∈ body.body.statements, st.Follows d.allows) (last : Location) :
    d.Keeps ((Evaluator.ofBudget n).runBody body last)
      ((Evaluator.supervised check otherwise n).runBody body last) := by
  refine .bind (.attempt (executeAll_supervised hcheck otherwise n h)) fun result => ?_
  rcases result with signal | _
  · cases signal with
    | goto label location => exact .bind (.steady (.setPending _)) fun _ => .pure _
    | _ => exact .steady (.leave _)
  · exact .pure _

omit hcheck in
/-- Parameters fit once they are bound. -/
theorem fits_of_bindParameters {parameters : List Parameter} {s t : Session}
    (hfits : ∀ (i : Nat) (p : Parameter), parameters[i]? = some p →
      (∀ v, args[i]? = some v → d.fits p.key v) ∧
      (args[i]? = none → ∀ u v u', (Evaluator.ofBudget n).defaultValue p u = .done v u' →
        d.fits p.key v))
    (hs : ∀ (key : String) (v : Value), s.locals[key]? = some v → d.fits key v)
    (h : (Evaluator.ofBudget n).bindParameters parameters args s = .done () t) :
    ∀ (key : String) (v : Value), t.locals[key]? = some v → d.fits key v := by
  induction parameters generalizing args s with
  | nil =>
    cases h
    exact hs
  | cons p rest ih =>
    obtain ⟨v, u, hu, hrest, -, hv⟩ := Evaluator.bindParameters_cons h
    have hfirst : d.fits p.key v := by
      cases args with
      | nil =>
        obtain ⟨s', hv⟩ := hv
        exact (hfits 0 p rfl).2 rfl s v s' hv
      | cons a more => exact (hfits 0 p rfl).1 v (congrArg some hv.symm)
    refine ih (fun i q hq => ?_) (fun key w hw => ?_) hrest
    · have hnext := hfits (i + 1) q hq
      rwa [← List.getElem?_tail] at hnext
    · rw [hu, Std.ExtTreeMap.getElem?_insert] at hw
      split at hw
      · next heq =>
        cases hw
        rwa [← Std.LawfulEqCmp.eq_of_compare heq]
      · exact hs key w hw

omit hcheck in
theorem ok_of_bindParameters {body : Procedure} (haccepts : d.accepts body) {coerced : List Value}
    (hsatisfied : body.signature.satisfy? args = some coerced) {s t : Session}
    (hs : s.scopes.SharesFunctions) (hempty : s.locals = ∅)
    (h : (Evaluator.ofBudget n).bindParameters body.parameters coerced s = .done () t) :
    d.Ok t := by
  have hends := (Contract.sharedScopes.simulation.bindParameters
    (Contract.sharedScopes.simulation.ofBudget n) body.parameters
    (fun v (_ : v ∈ coerced) => trivial) s trivial).2
  rw [h] at hends
  refine ⟨fits_of_bindParameters n (fun i p hp => ?_) (fun key v hv => ?_) h,
    hends.2.2.sharesFunctions hs⟩
  · obtain ⟨hgiven, hmissing, hdefault⟩ := d.received haccepts hsatisfied hp
    refine ⟨hgiven, fun hnone u v u' hv => ?_⟩
    have hvalue := Evaluator.defaultValue_eq_done hv
    cases hd : p.default? with
    | none =>
      rw [hd] at hvalue
      rw [hvalue]
      exact hmissing hnone hd
    | some e =>
      rw [hd] at hvalue
      obtain ⟨w, hw, rfl⟩ := hvalue
      exact hdefault hnone e hd n u w u' hw
  · rw [hempty] at hv
    cases hv

/-- A call of a procedure that keeps to the discipline is the same when its body is supervised. -/
theorem call_supervised {c : Callable} {body : Procedure} (htarget : c.target = .procedure body)
    (haccepts : d.accepts body) (hbody : ∀ st ∈ body.body.statements, st.Follows d.allows)
    (budget : Nat) (args : List Value) (context : Option AssocRef) (location closing : Location)
    {s : Session} (hs : s.scopes.SharesFunctions) :
    (Evaluator.supervised check otherwise n).call budget c args context location closing s =
      (Evaluator.ofBudget n).call budget c args context location closing s := by
  rw [Evaluator.call, Evaluator.call, Run.call, Run.call, Run.dispatch, Run.dispatch]
  cases hchosen : firstSatisfied args 0 c.overloads with
  | none => rfl
  | some chosen =>
    dsimp only
    rw [Run.calling, Run.calling]
    split
    · rfl
    rw [Run.handle_inCall_apply, Run.handle_inCall_apply]
    generalize context.getD s.scopes.rootM = m
    generalize Evaluator.frameOf? c chosen.signature location = frame?
    have hinvoke : (Evaluator.supervised check otherwise n).invoke budget c.target chosen.args
          (s.entered m frame?) =
        (Evaluator.ofBudget n).invoke budget c.target chosen.args (s.entered m frame?) := by
      rw [htarget]
      show (Evaluator.supervised check otherwise n).runProcedure budget body chosen.args _ =
        (Evaluator.ofBudget n).runProcedure budget body chosen.args _
      rw [Evaluator.runProcedure, Evaluator.runProcedure, Routine.bind_apply, Routine.bind_apply]
      rw [Evaluator.supervised, Evaluator.bindParameters_executing]
      cases hbound : (Evaluator.ofBudget n).bindParameters body.parameters chosen.args
          (s.entered m frame?) with
      | exit | exhausted => rfl
      | done _ t =>
        rw [Callable.overloads, htarget] at hchosen
        have ht : d.Ok t := ok_of_bindParameters n haccepts
          (Procedure.of_firstSatisfied hchosen) (s := s.entered m frame?) hs rfl hbound
        have hrest : d.Keeps
            (do let last ← Routine.iterate
                  ((Evaluator.ofBudget n).runBody body) budget body.location
                if (← Routine.view fun s => s.scopes.pending).isSome then Run.labelMissing last
                else return Value.invalid)
            (do let last ← Routine.iterate
                  ((Evaluator.supervised check otherwise n).runBody body) budget body.location
                if (← Routine.view fun s => s.scopes.pending).isSome then Run.labelMissing last
                else return Value.invalid) := by
          refine .bind (.iterate (runBody_supervised hcheck otherwise n hbody) budget _)
            fun last => .bind (.steady (.view _)) fun pending => ?_
          split
          · exact .bind (.steady (.view _)) fun _ => .steady (.raise _)
          · exact .pure _
        exact (hrest t ht).1.symm
    rw [Routine.handle, Routine.handle, hinvoke]

omit hcheck in
/-- All variables of the outermost level fit after a script that keeps to the discipline. -/
theorem Ok.exec (h : ∀ st ∈ statements, st.Follows d.allows) {s t : Session}
    {r : Except ScriptError Finish} (hs : d.Ok s) (hexec : s.exec n statements args = some (r, t)) :
    d.Ok t := by
  have hprogram : d.Keeps (Run.program n statements args) (Run.program n statements args) := by
    have hstatements : d.Keeps ((Evaluator.ofBudget n).executeAll statements)
        ((Evaluator.ofBudget n).executeAll statements) := by
      intro s hs
      have hkeeps : d.Keeps ((Evaluator.ofBudget n).executeAll statements)
          ((Evaluator.supervised (fun _ => True) (execute n) n).executeAll statements) :=
        executeAll_supervised (fun _ _ => trivial) (execute n) n h
      exact ⟨rfl, (hkeeps s hs).2⟩
    refine .bind (.crashing hstatements) fun _ => .bind (.steady (.view _)) fun entry => ?_
    split
    · refine .steady (.ofExpression fun sim => ?_)
      exact sim.callEntry n fun _ _ => trivial
    · exact .pure _
  obtain ⟨u, hu, hcore⟩ := Session.core_exec hexec
  have hscopes : t.scopes = u.scopes := congrArg Core.scopes hcore
  have hends := (hprogram s hs).2 u hu
  exact hends.of_locals (congrArg (fun scopes => scopes.active.locals) hscopes)
    (Session.growsTo_ofCore hcore)

end Supervised

/-- What holds of statements, calls and scripts that keep to a discipline, given a check of whether
all variables of a call fit: every statement of theirs is started in sessions that pass the check. -/
structure Upholds (d : Discipline) (check : Session → Prop) [DecidablePred check]
    (otherwise : Statement → Run Unit) (n : Nat) : Prop where
  statements : ∀ (statements : List Statement) (s : Session),
    (∀ st ∈ statements, st.Follows d.allows) → check s → s.scopes.SharesFunctions →
      (Evaluator.supervised check otherwise n).executeAll statements s =
        (Evaluator.ofBudget n).executeAll statements s ∧
      ∀ t, ((Evaluator.supervised check otherwise n).executeAll statements s).state? = some t →
        check t
  calls : ∀ (c : Callable) (body : Procedure) (budget : Nat) (args : List Value)
      (context : Option AssocRef) (location closing : Location) (s : Session),
    c.target = .procedure body → d.accepts body →
    (∀ st ∈ body.body.statements, st.Follows d.allows) → s.scopes.SharesFunctions →
      (Evaluator.supervised check otherwise n).call budget c args context location closing s =
        (Evaluator.ofBudget n).call budget c args context location closing s
  scripts : ∀ (statements : List Statement) (args : List Value) (s t : Session)
      (r : Except ScriptError Finish), (∀ st ∈ statements, st.Follows d.allows) →
    check s → s.scopes.SharesFunctions → s.exec n statements args = some (r, t) → check t

theorem upholds {check : Session → Prop} [DecidablePred check]
    (hcheck : ∀ s, d.Ok s ↔ check s ∧ s.scopes.SharesFunctions)
    (otherwise : Statement → Run Unit) (n : Nat) : d.Upholds check otherwise n := by
  have passes (s : Session) (hs : d.Ok s) : check s := ((hcheck s).1 hs).1
  refine ⟨?_, ?_, ?_⟩
  · intro statements s h hs hshared
    obtain ⟨heq, hends⟩ := executeAll_supervised passes otherwise n h s
      ((hcheck s).2 ⟨hs, hshared⟩)
    rw [← heq]
    exact ⟨rfl, fun t ht => passes t (hends t ht)⟩
  · intro c body budget args context location closing s htarget haccepts hbody hshared
    exact call_supervised passes otherwise n htarget haccepts hbody budget args context location
      closing hshared
  · intro statements args s t r h hs hshared hexec
    have hok : d.Ok s := (hcheck s).2 ⟨hs, hshared⟩
    exact passes t (hok.exec n h hexec)

end Discipline

end BrightScript
