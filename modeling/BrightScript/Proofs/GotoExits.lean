import BrightScript.Proofs.Discipline
import BrightScript.Proofs.LabelSearch

/-!
# How a `goto` leaves statements

A `goto` leaves all statements around it up to the body of its function. On the way each `for each`
whose pass it leaves notes the element after the one of that pass, in the one place that the session
has for this. So the outermost of these loops has the last word. `Evaluator.Leaves` follows a `goto`
from the statement it leaves down to the `goto` itself, and lists the loops whose passes it leaves.
Every run that a `goto` left is described by it (`Evaluator.exists_leaves`), because a `goto` comes
from a `goto` statement or from a block, and from nothing else (`Run.Jumps`).
-/

namespace BrightScript

variable {label : String} {location : Location} {s u : Session} {body block : Block}
  {statement : Statement} {goOn : Run Unit}

/-! ## Where jumps to labels come from -/

/-- Whenever a `goto` leaves a run, something holds of it and of the session it leaves. -/
def Run.Jumps {α : Type} (origin : String → Location → Session → Prop) (x : Run α) : Prop :=
  ∀ s label location u, x s = .exit (.goto label location) u → origin label location u

namespace Run.Jumps

variable {α β : Type} {origin origin' : String → Location → Session → Prop}

theorem mono {x : Run α} (hx : Jumps origin x)
    (h : ∀ label location u, origin label location u → origin' label location u) :
    Jumps origin' x :=
  fun s label location u hu => h label location u (hx s label location u hu)

theorem pure (a : α) : Jumps origin (Pure.pure a) := by
  intro s label location u h
  cases h

theorem change (f : Session → α × Session) : Jumps origin (Routine.change f) := by
  intro s label location u h
  cases h

theorem modify (f : Session → Session) : Jumps origin (Routine.modify f) :=
  change fun s => ((), f s)

theorem view (f : Session → α) : Jumps origin (Routine.view f) :=
  change fun s => (f s, s)

theorem raise (e : ScriptError) : Jumps origin (Run.raise e : Run α) := by
  intro s label location u h
  cases h

theorem leave {signal : Signal} (h : ∀ label location, signal ≠ .goto label location) :
    Jumps origin (Routine.leave signal : Run α) := by
  intro s label location u hu
  cases hu
  exact absurd rfl (h label location)

theorem bind {x : Run α} {f : α → Run β} (hx : Jumps origin x) (hf : ∀ a, Jumps origin (f a)) :
    Jumps origin (x >>= f) := by
  intro s label location u h
  obtain hxs | ⟨a, t, -, hfa⟩ := Routine.bind_eq_exit.1 h
  · exact hx s label location u hxs
  · exact hf a t label location u hfa

/-- A run whose signals are looked at, a `goto` being passed on. -/
theorem intercept {x : Run α} {f : Except Signal α → Run β} (hx : Jumps origin x)
    (hok : ∀ a, Jumps origin (f (.ok a)))
    (hgoto : ∀ label location, f (.error (.goto label location)) =
      Routine.leave (.goto label location))
    (hrest : ∀ signal, (∀ label location, signal ≠ .goto label location) →
      Jumps origin (f (.error signal))) :
    Jumps origin (Routine.attempt x >>= f) := by
  intro s label location u h
  rw [Routine.attempt_bind_apply] at h
  cases hxs : x s with
  | done a t => rw [hxs] at h; exact hok a t label location u h
  | exit signal t =>
    rw [hxs] at h
    by_cases hsignal : ∃ label location, signal = .goto label location
    · obtain ⟨label', location', rfl⟩ := hsignal
      dsimp only at h
      rw [hgoto] at h
      cases h
      exact hx s label location u hxs
    · exact hrest signal (fun l p hl => hsignal ⟨l, p, hl⟩) t label location u h
  | exhausted => rw [hxs] at h; cases h

theorem iterate {step : β → Run (β ⊕ α)} (hstep : ∀ b, Jumps origin (step b)) (budget : Nat)
    (b : β) : Jumps origin (Routine.iterate step budget b) := by
  induction budget generalizing b with
  | zero =>
    intro s label location u h
    cases h
  | succ budget ih =>
    rw [Routine.iterate_succ_eq]
    refine (hstep b).bind fun r => ?_
    cases r with
    | inl b' => exact ih b'
    | inr a => exact pure a

theorem unlessSearching (h : Jumps origin goOn) :
    Jumps origin (do if ← Evaluator.searching then return else goOn) := by
  refine (view _).bind fun b => ?_
  cases b with
  | true => exact pure ()
  | false => exact h

/-- No `goto` leaves an expression. -/
theorem ofExpression {x : Run α}
    (h : ∀ sim : Simulation fun _ => True, sim.rel .expression (fun _ => True) x x) :
    Jumps origin x := by
  intro s label location u hu
  have hends := (h Contract.signals.simulation s trivial).2
  rw [hu] at hends
  cases hends.2.2 rfl

theorem evaluate (n : Nat) (e : Expr) : Jumps origin (BrightScript.evaluate n e) :=
  ofExpression fun sim => (sim.ofBudget n).evaluate e

theorem rejectReserved (name : Identifier) (message : String) :
    Jumps origin (Run.rejectReserved name message) := by
  unfold Run.rejectReserved
  split
  · exact raise _
  · exact pure ()

theorem bindLocal (name : Identifier) (v : Value) : Jumps origin (Run.bindLocal name v) := by
  unfold Run.bindLocal
  split
  · exact raise _
  · exact modify _

theorem assign (name : Identifier) (v : Value) (location : Location) :
    Jumps origin (Run.assign name v location) := by
  unfold Run.assign
  split
  · dsimp only
    split
    · exact bindLocal _ _
    · exact raise _
  · exact bindLocal _ _

theorem declare (name : Identifier) (body : Procedure) : Jumps origin (Run.declare name body) := by
  refine (rejectReserved _ _).bind fun _ => (view _).bind fun scopes => ?_
  split
  · split
    · split
      · exact pure ()
      · exact raise _
    · exact pure ()
  · exact modify _

theorem checkpoint (statement : Statement) : Jumps origin (Run.checkpoint statement) := by
  intro s label location u h
  obtain ⟨t, ht, -⟩ | ⟨_, t, ht, -⟩ := Run.checkpoint_cases statement s <;> rw [ht] at h <;> cases h

theorem approach (statement : Statement) : Jumps origin (Evaluator.approach statement) := by
  intro s label location u h
  obtain ⟨t, ht, -⟩ | ⟨_, t, ht, -⟩ := Evaluator.approach_cases statement s <;>
    rw [ht] at h <;> cases h

theorem printLine (n : Nat) (items : List PrintItem) :
    Jumps origin ((Evaluator.ofBudget n).printLine items) := by
  have pieces (line : String) : Jumps origin ((Evaluator.ofBudget n).printItems line items) := by
    induction items generalizing line with
    | nil => exact pure line
    | cons item rest ih =>
      refine (ofExpression fun sim => sim.printItem (sim.ofBudget n) item).bind fun piece => ?_
      exact (modify _).bind fun _ => ih _
  refine (pieces "").bind fun line => ?_
  split
  · exact pure line
  · exact (modify _).bind fun _ => pure _

theorem print (n : Nat) (items : List PrintItem) :
    Jumps origin ((Evaluator.ofBudget n).print items) := by
  refine Jumps.bind ?_ fun _ => Jumps.bind ?_ fun _ => ?_
  · exact (change _).bind fun _ => modify _
  · exact (change _).bind fun _ => modify _
  intro s label location u h
  rw [Run.printing] at h
  cases hline : (Evaluator.ofBudget n).printLine items s with
  | exit signal t =>
    rw [hline] at h
    cases h
    have hnone : Jumps (fun _ _ _ => False) ((Evaluator.ofBudget n).printLine items) :=
      printLine n items
    exact (hnone s label location t hline).elim
  | _ => rw [hline] at h; cases h

end Run.Jumps

/-! ## Loops that a `goto` leaves -/

def Statement.isForEach : Statement → Bool
  | .forEach .. => true
  | _ => false

/-- A `for each` whose pass over an element, given by its index, was left. -/
structure LoopExit where
  loop : Statement
  index : Nat

namespace Evaluator

/-- How a `goto` leaves a statement that is executed under a budget: the passes of `for each` loops
that it leaves, the outermost first, the session it stands in, and the session it leaves. A pass
that began behind a label in the body is not one over an element. -/
inductive Leaves (label : String) (location : Location) :
    Nat → Statement → List LoopExit → Session → Session → Prop
  | goto {n : Nat} {name : Identifier} {s : Session} (hname : name.name = label) :
      Leaves label location (n + 1) (.goto name location) [] s s
  | inside {n : Nat} {statement below : Statement} {block : Block} {exits : List LoopExit}
      {g s u : Session} (tryMode : Bool) (hblock : block ∈ statement.blocks)
      (hplain : statement.isForEach = false ∨ s.scopes.pending.isSome = true)
      (hrun : (ofBudget n).executeBlock block s = .exit (.goto label location) u)
      (hbelow : below ∈ block.statements) (h : Leaves label location n below exits g u) :
      Leaves label location (n + 1) statement exits g (u.withTry tryMode)
  | element {n i : Nat} {item : Identifier} {target : Expr} {body : Block} {place : Location}
      {below : Statement} {exits : List LoopExit} {collection v : Value} {elements : List Value}
      {g s t v₀ v₁ u : Session} (htarget : (ofBudget n).evaluate target s = .done collection t)
      (helements : t.heap.elements? collection = some elements) (hv : elements[i]? = some v)
      (hbind : Run.bindLocal item v v₀ = .done () v₁)
      (hrun : (ofBudget n).executeBlock body v₁ = .exit (.goto label location) u)
      (hbelow : below ∈ body.statements) (h : Leaves label location n below exits g u) :
      Leaves label location (n + 1) (.forEach item target body place)
        (⟨.forEach item target body place, i⟩ :: exits) g { u with resumeAt := some (i + 1) }

/-- The outermost loop that was left by a `goto` says where to go on. If there is none, this stays
as it was when the `goto` was executed. -/
theorem Leaves.resumeAt {n : Nat} {exits : List LoopExit} {g : Session}
    (h : Leaves label location n statement exits g u) :
    u.resumeAt = (exits.head?.map fun e => e.index + 1).or g.resumeAt := by
  induction h with
  | goto => rfl
  | inside _ _ _ _ _ _ ih => exact ih
  | element => rfl

def LeavesBlock (n : Nat) (block : Block) (s : Session) (label : String) (location : Location)
    (u : Session) : Prop :=
  (ofBudget n).executeBlock block s = .exit (.goto label location) u ∧
    ∃ below ∈ block.statements, ∃ exits g, Leaves label location n below exits g u

def LeavesStatement (n : Nat) (statement : Statement) (label : String) (location : Location)
    (u : Session) : Prop :=
  ∃ exits g, Leaves label location n statement exits g u

/-- Every `goto` that leaves a run leaves a statement with it. -/
abbrev JumpsOutOf (n : Nat) (statement : Statement) {α : Type} (x : Run α) : Prop :=
  Run.Jumps (LeavesStatement n statement) x

theorem LeavesBlock.inside {n : Nat} (h : LeavesBlock n block s label location u)
    (hblock : block ∈ statement.blocks)
    (hplain : statement.isForEach = false ∨ s.scopes.pending.isSome = true) (tryMode : Bool) :
    LeavesStatement (n + 1) statement label location (u.withTry tryMode) := by
  obtain ⟨hrun, below, hbelow, exits, g, hleaves⟩ := h
  exact ⟨exits, g, .inside tryMode hblock hplain hrun hbelow hleaves⟩

/-! ## The rules

The statements below a statement are executed under a smaller budget, for which the description is
assumed. The rules for a `for each` stand apart: only there it matters how a block was come to. -/

section Rules

variable {n : Nat}
  (ih : ∀ st : Statement, Run.Jumps (LeavesStatement n st) (BrightScript.execute n st))
include ih

theorem leavesBlock_of_exit
    (h : (ofBudget n).executeBlock block s = .exit (.goto label location) u) :
    LeavesBlock n block s label location u := by
  have hall (statements : List Statement) :
      Run.Jumps (fun label location u => ∃ st ∈ statements, LeavesStatement n st label location u)
        ((ofBudget n).executeAll statements) := by
    induction statements with
    | nil => exact .pure ()
    | cons st rest hrest =>
      refine .bind ((ih st).mono fun _ _ _ h => ⟨st, .head _, h⟩) fun _ => ?_
      exact hrest.mono fun _ _ _ ⟨st', hst', h⟩ => ⟨st', .tail _ hst', h⟩
  exact ⟨h, hall block.statements s label location u h⟩

section Plain

variable (hplain : statement.isForEach = false)
include hplain

theorem executeBlock_jumps (hblock : block ∈ statement.blocks) :
    JumpsOutOf (n + 1) statement ((ofBudget n).executeBlock block) :=
  fun _ _ _ u h => (leavesBlock_of_exit ih h).inside hblock (.inl hplain) u.tryMode

theorem clauses_jumps {elseBranch : Option Block} {branches : List Clause}
    (helse : ∀ block ∈ elseBranch, block ∈ statement.blocks)
    (h : ∀ clause ∈ branches, clause.block ∈ statement.blocks) :
    JumpsOutOf (n + 1) statement ((ofBudget n).clauses elseBranch branches) := by
  induction branches with
  | nil =>
    cases elseBranch with
    | none => exact .pure ()
    | some block => exact executeBlock_jumps ih hplain (helse block rfl)
  | cons clause rest hrest =>
    obtain ⟨hfirst, hlater⟩ := List.forall_mem_cons.1 h
    refine .bind (.ofExpression fun sim => sim.holds (sim.ofBudget n) _) fun b => ?_
    cases b with
    | true => exact executeBlock_jumps ih hplain hfirst
    | false => exact hrest hlater

theorem searchBlocks_jumps {blocks : List Block} (h : ∀ block ∈ blocks, block ∈ statement.blocks) :
    JumpsOutOf (n + 1) statement ((ofBudget n).searchBlocks blocks) := by
  induction blocks with
  | nil => exact .pure ()
  | cons block rest hrest =>
    obtain ⟨hfirst, hlater⟩ := List.forall_mem_cons.1 h
    refine .bind (executeBlock_jumps ih hplain hfirst) fun _ => .bind (.view _) fun b => ?_
    cases b with
    | true => exact hrest hlater
    | false => exact .pure ()

theorem tryCatch_jumps {tryBlock catchBlock : Block} {binding : Identifier}
    (htry : tryBlock ∈ statement.blocks) (hcatch : catchBlock ∈ statement.blocks) :
    JumpsOutOf (n + 1) statement ((ofBudget n).tryCatch tryBlock binding catchBlock) := by
  have caught (e : ScriptError) : JumpsOutOf (n + 1) statement
      ((ofBudget n).catchError binding catchBlock e) := by
    refine .bind (.ofExpression fun sim => sim.caught trivial fun _ _ => trivial) fun v => ?_
    exact .bind (.bindLocal _ _) fun _ => executeBlock_jumps ih hplain hcatch
  rw [tryCatch]
  -- A signal leaves the block in the mode of its `try`, and the statement in the mode before it.
  intro s label location u h
  rw [Run.catching] at h
  cases hrun : (ofBudget n).executeBlock tryBlock (s.withTry true) with
  | done | exhausted => rw [hrun] at h; cases h
  | exit signal t =>
    rw [hrun] at h
    cases signal with
    | error e => exact caught e _ label location u h
    | goto label' location' =>
      cases h
      exact (leavesBlock_of_exit ih hrun).inside htry (.inl hplain) s.tryMode
    | _ => cases h

theorem inLoop_jumps (form : LoopForm) (hbody : body ∈ statement.blocks) {α : Type}
    {ended goOn stop : Run α} (hended : JumpsOutOf (n + 1) statement ended)
    (hgoOn : JumpsOutOf (n + 1) statement goOn) (hstop : JumpsOutOf (n + 1) statement stop) :
    JumpsOutOf (n + 1) statement ((ofBudget n).inLoop form body ended goOn stop) := by
  refine .intercept (executeBlock_jumps ih hplain hbody) (fun _ => hended) (fun _ _ => ?_) ?_
  · cases form <;> rfl
  · intro signal hsignal
    dsimp only
    rcases signal.turn? form with _ | _ | _
    · exact .leave hsignal
    · exact hstop
    · exact hgoOn

theorem forLoop_jumps (hbody : body ∈ statement.blocks) (budget : Nat) (counter : Identifier)
    (start final : Expr) (step : Option Expr) (resume : Bool) :
    JumpsOutOf (n + 1) statement
      ((ofBudget n).forLoop budget counter start final step body resume) := by
  have moved (amount : Value) (location : Location) :
      JumpsOutOf (n + 1) statement (stepCounter counter amount location) := by
    refine .bind (.view _) fun current => ?_
    dsimp only
    split
    · exact .assign _ _ _
    · exact .raise _
  have pass (limit amount : Value) (location : Location) (start : Unit) :
      JumpsOutOf (n + 1) statement
        ((ofBudget n).forPass counter limit amount location body start) := by
    refine .bind (.view _) fun current => ?_
    dsimp only
    split
    · exact .pure _
    · have next := (moved amount location).bind fun _ => .pure (Sum.inl () : Unit ⊕ Unit)
      exact inLoop_jumps ih hplain .counting hbody next next (.pure _)
  refine .bind (.ofExpression fun sim => ?_) fun amount => ?_
  · exact sim.stepOf (sim.ofBudget n) step
  cases resume with
  | true =>
    refine .bind (moved _ _) fun _ => .bind (.evaluate n final) fun limit => ?_
    exact .iterate (pass _ _ _) budget ()
  | false =>
    refine .bind (.evaluate n start) fun v => .bind (.assign _ _ _) fun _ => ?_
    exact .bind (.evaluate n final) fun limit => .iterate (pass _ _ _) budget ()

theorem whileLoop_jumps (hbody : body ∈ statement.blocks) (budget : Nat) (condition : Expr) :
    JumpsOutOf (n + 1) statement ((ofBudget n).whileLoop budget condition body) := by
  refine .iterate (fun _ => ?_) budget ()
  refine .bind (.ofExpression fun sim => sim.holds (sim.ofBudget n) condition) fun b => ?_
  cases b with
  | false => exact .pure _
  | true => exact inLoop_jumps ih hplain .conditional hbody (.pure _) (.pure _) (.pure _)

end Plain

/-- A `goto` leaves a pass over one of the elements, which are counted from an index on. -/
def LeavesPass (n : Nat) (item : Identifier) (body : Block) (index : Nat) (elements : List Value)
    (label : String) (location : Location) (u : Session) : Prop :=
  ∃ (i : Nat) (v : Value) (v₀ v₁ t : Session), elements[i]? = some v ∧
    Run.bindLocal item v v₀ = .done () v₁ ∧ LeavesBlock n body v₁ label location t ∧
    u = { t with resumeAt := some (index + i + 1) }

theorem forEachPasses_jumps (item : Identifier) (body : Block) (skip index : Nat)
    (elements : List Value) :
    Run.Jumps (LeavesPass n item body index elements)
      ((ofBudget n).forEachPasses item body skip index elements) := by
  induction elements generalizing index with
  | nil => exact .pure ()
  | cons element rest hrest =>
    have later : Run.Jumps (LeavesPass n item body index (element :: rest))
        ((ofBudget n).forEachPasses item body skip (index + 1) rest) := by
      refine (hrest (index + 1)).mono ?_
      rintro label location u ⟨i, v, v₀, v₁, t, hv, hbind, hblock, rfl⟩
      have hindex : index + 1 + i + 1 = index + (i + 1) + 1 := by omega
      exact ⟨i + 1, v, v₀, v₁, t, hv, hbind, hblock, by rw [hindex]⟩
    -- The pass over the first element starts from the session in which it is bound, so the run is
    -- followed up to there and `Run.Jumps.bind` is of no use.
    intro s label location u h
    rw [forEachPasses] at h
    obtain hbind | ⟨_, t, hbind, h⟩ := Routine.bind_eq_exit.1 h
    · exact Run.Jumps.bindLocal item element s label location u hbind
    · split at h
      · exact later t label location u h
      · rw [Routine.attempt_bind_apply] at h
        cases hrun : (ofBudget n).executeBlock body t with
        | done _ w => rw [hrun] at h; exact later w label location u h
        | exhausted => rw [hrun] at h; cases h
        | exit signal w =>
          rw [hrun] at h
          cases signal with
          | continueFor => exact later w label location u h
          | goto =>
            cases h
            exact ⟨0, element, s, t, w, rfl, hbind, leavesBlock_of_exit ih hrun, rfl⟩
          | _ => cases h

theorem forEach_jumps (item : Identifier) (target : Expr) (body : Block) (place : Location)
    (resume : Bool) :
    Run.Jumps (LeavesStatement (n + 1) (.forEach item target body place))
      ((ofBudget n).forEach item target body resume) := by
  intro s label location u h
  rw [forEach] at h
  obtain htarget | ⟨collection, t, htarget, h⟩ := Routine.bind_eq_exit.1 h
  · exact Run.Jumps.evaluate n target s label location u htarget
  · rw [Routine.bind_apply, Routine.view_apply] at h
    cases helements : t.heap.elements? collection with
    | none => rw [helements] at h; cases h
    | some elements =>
      rw [helements] at h
      have passes : Run.Jumps (LeavesPass n item body 0 elements) (do
          let skip ← if resume then takeResume else pure 0
          (ofBudget n).forEachPasses item body skip 0 elements) := by
        have beyond (skip : Nat) := forEachPasses_jumps ih item body skip 0 elements
        cases resume with
        | true => exact .bind (.change _) beyond
        | false => exact .bind (.pure 0) beyond
      obtain ⟨i, v, v₀, v₁, w, hv, hbind, ⟨hrun, below, hbelow, exits, g, hleaves⟩, rfl⟩ :=
        passes t label location u h
      rw [Nat.zero_add]
      exact ⟨_, g, .element htarget helements hv hbind hrun hbelow hleaves⟩

/-- While a label is looked for, a `for each` is left by a `goto` in the pass that began behind the
label, or in one of the passes that it goes on with. -/
theorem searchForEach_jumps {item : Identifier} {target : Expr} {place : Location}
    (hs : s.scopes.pending.isSome = true) (h : (ofBudget n).searchLoop .counting body
      ((ofBudget n).forEach item target body true) s = .exit (.goto label location) u) :
    LeavesStatement (n + 1) (.forEach item target body place) label location u := by
  have goOn := forEach_jumps ih item target body place true
  rw [searchLoop, inLoop, Routine.attempt_bind_apply] at h
  cases hrun : (ofBudget n).executeBlock body s with
  | exhausted => rw [hrun] at h; cases h
  | done _ t =>
    rw [hrun] at h
    exact goOn.unlessSearching t label location u h
  | exit signal t =>
    rw [hrun] at h
    cases signal with
    | continueFor => exact goOn t label location u h
    | goto =>
      cases h
      exact (leavesBlock_of_exit ih hrun).inside (.head _) (.inr hs) u.tryMode
    | exitFor => cases h
    | _ => cases h

theorem searchLoop_jumps (form : LoopForm) (hplain : statement.isForEach = false)
    (hbody : body ∈ statement.blocks) (hgoOn : JumpsOutOf (n + 1) statement goOn) :
    JumpsOutOf (n + 1) statement ((ofBudget n).searchLoop form body goOn) :=
  inLoop_jumps ih hplain form hbody hgoOn.unlessSearching hgoOn (.pure ())

theorem leaves_of_search {budget : Nat} {wanted : String} (hs : s.scopes.pending.isSome = true)
    (h : (ofBudget n).search budget wanted statement s = .exit (.goto label location) u) :
    LeavesStatement (n + 1) statement label location u := by
  cases statement with
  | label name =>
    unfold search at h
    dsimp only at h
    split at h <;> cases h
  | block body => exact executeBlock_jumps ih rfl (.head _) s label location u h
  | conditional condition thenBranch elseIfs elseBranch place =>
    exact searchBlocks_jumps ih rfl (fun _ hblock => hblock) s label location u h
  | tryCatch tryBlock binding catchBlock place =>
    exact executeBlock_jumps ih rfl (.tail _ (.head _)) s label location u h
  | forLoop counter start final step body place =>
    refine searchLoop_jumps ih .counting rfl (.head _) ?_ s label location u h
    exact forLoop_jumps ih rfl (.head _) budget counter start final step true
  | forEach item target body place => exact searchForEach_jumps ih hs h
  | whileLoop condition body place =>
    refine searchLoop_jumps ih .conditional rfl (.head _) ?_ s label location u h
    exact whileLoop_jumps ih rfl (.head _) budget condition
  | _ => cases h

theorem perform_jumps (budget : Nat) (statement : Statement) :
    JumpsOutOf (n + 1) statement ((ofBudget n).perform budget statement) := by
  cases statement with
  | expression value => exact .bind (.evaluate n value) fun _ => .pure ()
  | assignment name value location =>
    refine .bind (.rejectReserved _ _) fun _ => .bind (.evaluate n value) fun v => ?_
    exact .assign _ _ _
  | dim name dimensions location =>
    refine .bind (.rejectReserved _ _) fun _ => .bind (.ofExpression fun sim => ?_) fun found => ?_
    · exact sim.weaken (sim.sizes (sim.ofBudget n) 1 _) fun _ _ => trivial
    · exact .bind (.change _) fun grid => .bindLocal _ _
  | block body => exact executeBlock_jumps ih rfl (.head _)
  | exitFor | exitWhile | continueFor | continueWhile | ending =>
    exact .leave fun _ _ h => by cases h
  | goto name place =>
    intro s label location u h
    cases h
    exact ⟨[], s, .goto rfl⟩
  | declaration name body => exact .declare name body
  | conditional condition thenBranch elseIfs elseBranch location =>
    refine clauses_jumps ih rfl (fun block hblock => ?_) fun clause hclause => ?_
    · exact Statement.else_mem_blocks hblock
    · exact Statement.clause_mem_blocks hclause
  | increment target op location =>
    refine .bind (.evaluate n _) fun v => .bind (.ofExpression fun sim => ?_) fun w => ?_
    · exact sim.stepped op v.unbox location
    cases target with
    | reference name => exact .bindLocal _ _
    | dottedGet object name optional place =>
      exact .ofExpression fun sim => sim.dottedSet (sim.ofBudget n) object name trivial
    | indexedGet object indexes optional closing place =>
      exact .ofExpression fun sim =>
        sim.indexedSet (sim.ofBudget n) object indexes trivial closing place
    | _ => exact .raise _
  | print items location => exact .print n items
  | label | library => exact .pure ()
  | returning value location =>
    refine .bind (.ofExpression fun sim => ?_) fun v => .leave fun _ _ h => by cases h
    exact sim.weaken (sim.returnValue (sim.ofBudget n) value) fun _ _ => trivial
  | stopping location => exact .bind (.modify _) fun _ => .checkpoint _
  | forLoop counter start final step body location =>
    exact forLoop_jumps ih rfl (.head _) budget counter start final step false
  | forEach item target body location => exact forEach_jumps ih item target body location false
  | whileLoop condition body location => exact whileLoop_jumps ih rfl (.head _) budget condition
  | dottedSet object name value location =>
    refine .bind (.evaluate n value) fun v => .ofExpression fun sim => ?_
    exact sim.dottedSet (sim.ofBudget n) object name trivial
  | indexedSet object indexes value closing location =>
    refine .bind (.evaluate n value) fun v => .ofExpression fun sim => ?_
    exact sim.indexedSet (sim.ofBudget n) object indexes trivial closing location
  | tryCatch tryBlock binding catchBlock location =>
    exact tryCatch_jumps ih rfl (.head _) (.tail _ (.head _))
  | throwing value location =>
    refine .bind (.evaluate n value) fun v => .ofExpression fun sim => ?_
    exact sim.throwValue v location

end Rules

/-- A run of a statement that a `goto` left is described by `Leaves`. -/
theorem exists_leaves (n : Nat) (statement : Statement) :
    Run.Jumps (LeavesStatement n statement) (BrightScript.execute n statement) := by
  induction n generalizing statement with
  | zero =>
    intro s label location u h
    cases h
  | succ n ih =>
    have performed : JumpsOutOf (n + 1) statement
        (approach statement >>= fun _ => (ofBudget n).perform n statement) :=
      .bind (.approach statement) fun _ => perform_jumps ih n statement
    -- Only a search may come to the body of a `for each` without binding an element.
    intro s label location u h
    cases hs : s.scopes.pending with
    | some wanted =>
      have hsearch : (ofBudget n).search n wanted statement s = .exit (.goto label location) u := by
        rw [← statement_of_pending hs]
        exact h
      exact leaves_of_search ih (by rw [hs]; rfl) hsearch
    | none =>
      have h' : (ofBudget n).statement n statement s = .exit (.goto label location) u := h
      rw [statement_of_pending_none _ _ _ hs] at h'
      exact performed s label location u h'

theorem leavesBlock_of_goto {n : Nat}
    (h : (ofBudget n).executeBlock block s = .exit (.goto label location) u) :
    LeavesBlock n block s label location u :=
  leavesBlock_of_exit (exists_leaves n) h

end Evaluator

end BrightScript
