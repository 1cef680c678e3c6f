import BrightScript.Proofs.Mirror.Statement

/-!
# Names in any case of letters

Two scripts that differ only in the case of letters in names of variables, targets, labels and
members run alike. Each of them is compared with its form in small letters: the run of that form
follows the run of the script, and both forms are the same. Sessions may already differ in the same
way, as they do after two such scripts, so that the comparison goes on from script to script.
-/

namespace BrightScript

/-! ## A mirror of small letters -/

/-- Runs beside runs with names in small letters, under a debugger that does not look at
spelling. -/
def Mirror.small : Mirror where
  sp := .small
  fit s := s.debugger.Ignores .small
  mayGiveUp := False
  silent := by
    intro s t hsilent hs
    rw [hsilent.debugger]
    exact hs
  consult := by
    intro s pause hs
    refine ⟨s.consult_spelled pause hs, ?_⟩
    rw [Session.consult]
    have hdebugger (t : Session) (channel : Channel) (text : String) :
        (t.write channel text).debugger = t.debugger := by
      cases channel <;> rfl
    rw [hdebugger]
    exact s.ignores_verdict pause hs

namespace Mirror

section Nested

variable {ev ev' : Evaluator} (h : small.Related ev ev')
include h

theorem small_printItems (line : String) (items : List PrintItem) :
    small.Follows id (ev.printItems line items)
      (ev'.printItems line (PrintItem.spelledAll .small items)) := by
  induction items generalizing line with
  | nil => exact small.ret id line
  | cons item rest ih =>
    refine small.bind (small.printItem h item) fun piece => ?_
    exact small.bind (small.modify (fun _ hs => hs) fun _ => rfl) fun _ => ih _

theorem small_printLine (items : List PrintItem) :
    small.Follows id (ev.printLine items)
      (ev'.printLine (PrintItem.spelledAll .small items)) := by
  unfold Evaluator.printLine
  rw [Run.staysOnLine_spelledAll]
  refine small.bind (small_printItems h "" items) fun line => ?_
  dsimp only [id]
  split
  · exact small.ret id line
  · exact small.bind (small.modify (fun _ hs => hs) fun _ => rfl) fun _ => small.ret id _

theorem small_print (items : List PrintItem) :
    small.Follows id (ev.print items) (ev'.print (PrintItem.spelledAll .small items)) := by
  have printed : small.Follows id (Run.printing (ev.printLine items))
      (Run.printing (ev'.printLine (PrintItem.spelledAll .small items))) := by
    intro s hs
    have hends := small_printLine h items s hs
    rw [Run.printing, Run.printing]
    generalize ev.printLine items s = o,
      ev'.printLine (PrintItem.spelledAll .small items) (s.spelled small.sp) = o' at hends ⊢
    cases hends with
    | gaveUp hgive => exact .gaveUp hgive
    | done line ht =>
      dsimp only
      rw [Run.withoutHelpers_spelled]
      exact .done () ht
    | exit signal ht =>
      dsimp only
      rw [Run.withoutHelpers_spelled]
      exact .exit signal ht
    | exhausted => exact .exhausted
  refine small.bind (small.bindHelper .tab) fun _ => ?_
  exact small.bind (small.bindHelper .pos) fun _ => printed

end Nested

theorem small_ofBudget (budget : Nat) :
    small.Related (Evaluator.ofBudget budget) (Evaluator.ofBudget budget) := by
  induction budget with
  | zero => exact ⟨fun _ => small.giveUp _, fun _ => small.giveUp id⟩
  | succ budget ih =>
    refine ⟨fun e => small.expression ih budget e, fun statement => ?_⟩
    show small.Follows id ((Evaluator.ofBudget budget).statement budget statement)
      ((Evaluator.ofBudget budget).statement budget (statement.spelled .small))
    exact small.around ih budget statement
      (small.perform ih budget statement fun items _ _ => small_print ih items)

end Mirror

/-! ## Answers -/

def endSpelled (sp : Spelling) : Except ScriptError Finish → Except ScriptError Finish
  | .ok finish => .ok (finish.spelled sp)
  | .error e => .error (e.spelled sp)

theorem Signal.toError_spelled {sp : Spelling} (signal : Signal) (s : Session) :
    (signal.spelled sp).toError (s.spelled sp) = (signal.toError s).spelled sp := by
  cases signal <;> rfl

/-- A script in small letters, run in the session in small letters, gives the answer in small
letters. -/
theorem Session.exec_small {s : Session} (hs : s.debugger.Ignores .small) (budget : Nat)
    (statements : List Statement) (args : List Value) :
    (s.spelled .small).exec budget (Statement.spelledAll .small statements)
        (args.map (Value.spelled .small)) =
      (s.exec budget statements args).map fun (r, t) =>
        (endSpelled .small r, t.spelled .small) := by
  have hends : Mirror.small.Ends (Finish.spelled .small) (Run.script budget statements args s)
      (Run.script budget (Statement.spelledAll .small statements)
        (args.map (Value.spelled .small)) (s.spelled .small)) :=
    Mirror.small.script (Mirror.small_ofBudget budget) budget statements args s hs
  unfold Session.exec
  generalize Run.script budget statements args s = o,
    Run.script budget (Statement.spelledAll .small statements)
      (args.map (Value.spelled .small)) (s.spelled .small) = o' at hends ⊢
  cases hends with
  | gaveUp hgive => exact hgive.elim
  | done finish ht => rfl
  | exit signal ht =>
    dsimp only [Option.map_some, endSpelled]
    rw [show Mirror.small.sp = .small from rfl, Signal.toError_spelled]
  | exhausted => rfl

/-- Two answers are the same up to the spelling of names in functions. -/
structure SameAnswer (a b : Except ScriptError Finish × Session) : Prop where
  ended : endSpelled .small a.1 = endSpelled .small b.1
  session : a.2.spelled .small = b.2.spelled .small
  stdout : a.2.stdout = b.2.stdout
  stderr : a.2.stderr = b.2.stderr
  errors : a.2.log.errors.map (fun e => (e.number, e.message, e.location)) =
    b.2.log.errors.map fun e => (e.number, e.message, e.location)
  locals : Bindings.spelled .small a.2.locals = Bindings.spelled .small b.2.locals
  heap : a.2.heap.spelled .small = b.2.heap.spelled .small

theorem SameAnswer.of_spelled {a b : Except ScriptError Finish × Session}
    (hended : endSpelled .small a.1 = endSpelled .small b.1)
    (hsession : a.2.spelled .small = b.2.spelled .small) : SameAnswer a b where
  ended := hended
  session := hsession
  stdout := (congrArg Session.stdout hsession :)
  stderr := (congrArg Session.stderr hsession :)
  errors := by
    have herrors : a.2.log.errors.map (ScriptError.spelled .small) =
        b.2.log.errors.map (ScriptError.spelled .small) :=
      congrArg (fun s : Session => s.log.errors) hsession
    have hsummary := congrArg
      (List.map fun e : ScriptError => (e.number, e.message, e.location)) herrors
    rw [List.map_map, List.map_map] at hsummary
    exact hsummary
  locals := congrArg Session.locals hsession
  heap := congrArg Session.heap hsession

theorem Debugger.ignores_of_spelled {sp : Spelling} {d d' : Debugger}
    (h : d.spelled sp = d'.spelled sp) (hd : d.Ignores sp) : d'.Ignores sp := by
  cases d' with
  | scripted | console => trivial
  | host decide' seen' =>
    cases d with
    | scripted | console => cases h
    | host decide seen =>
      obtain ⟨rfl, -⟩ := Debugger.host.inj h
      exact hd

/-- Scripts that are the same in small letters, run on arguments and in sessions that are, give the
same answer, or none under a budget that is too small. The debugger may see the difference but must
not act on it. The sessions afterwards are the same in small letters again. -/
theorem case_insensitive_execution {s s' : Session} (hs : s.spelled .small = s'.spelled .small)
    (hdebugger : s.debugger.Ignores .small) {statements statements' : List Statement}
    (hstatements :
      Statement.spelledAll .small statements = Statement.spelledAll .small statements')
    {args args' : List Value}
    (hargs : args.map (Value.spelled .small) = args'.map (Value.spelled .small)) (budget : Nat) :
    Option.Rel SameAnswer (s.exec budget statements args) (s'.exec budget statements' args') := by
  have hdebugger' : s'.debugger.Ignores .small :=
    Debugger.ignores_of_spelled (congrArg Session.debugger hs) hdebugger
  have hexec := Session.exec_small hdebugger budget statements args
  have hexec' := Session.exec_small hdebugger' budget statements' args'
  rw [hs, hstatements, hargs, hexec'] at hexec
  cases ha : s.exec budget statements args with
  | none =>
    rw [ha, Option.map_none, Option.map_eq_none_iff] at hexec
    rw [hexec]
    exact .none
  | some a =>
    rw [ha, Option.map_some, Option.map_eq_some_iff] at hexec
    obtain ⟨b, hb, hab⟩ := hexec
    rw [hb]
    obtain ⟨hended, hsession⟩ := Prod.mk.inj hab
    exact .some (.of_spelled hended.symm hsession.symm)

/-- A function that counts up to three with a `goto`. Every name is given in two spellings. -/
def countingMain (bag bag' label label' member member' : String) : List Statement :=
  let name (text : String) : Identifier := ⟨text, .builtin⟩
  let count (bag member : String) : Expr :=
    .dottedGet (.reference (name bag)) (name member) false .builtin
  [.declaration (name "main") ⟨"main", [], .void, true,
    ⟨[.assignment (name bag) (.assocLiteral [] .builtin) .builtin,
      .dottedSet (.reference (name bag')) (name member) (.literal (.integer 1) .builtin) .builtin,
      .label (name label),
      .increment (count bag member') .increment .builtin,
      .conditional (.binary (count bag' member) .less (.literal (.integer 3) .builtin) .builtin)
        ⟨[.goto (name label') .builtin], .builtin⟩ [] none .builtin,
      .print [.expression (count bag' member'), .expression (.reference (name bag))] .builtin],
      .builtin⟩, .builtin⟩]

theorem spelledAll_countingMain {bag bag' label label' member member' : String}
    (h : Identifier.isReserved ⟨bag, .builtin⟩ = false) :
    Statement.spelledAll .small (countingMain bag bag' label label' member member') =
      countingMain (Text.fold bag) (Text.fold bag') (Text.fold label) (Text.fold label')
        (Text.fold member) (Text.fold member') := by
  have htarget : Identifier.spelledTarget .small ⟨bag, .builtin⟩ = ⟨Text.fold bag, .builtin⟩ := by
    rw [Identifier.spelledTarget, h]
    rfl
  simp only [countingMain, Statement.spelledAll, Statement.spelled, Procedure.spelled,
    Block.spelled, htarget]
  rfl

theorem case_insensitive_execution_of_countingMain :
    ∃ a b,
      (Session.new .standard).exec 9
          (countingMain "Bag" "BAG" "Again" "AGAIN" "Count" "cOUNT") [] = some a ∧
      (Session.new .standard).exec 9
          (countingMain "bag" "bAg" "again" "aGAIN" "COUNT" "count") [] = some b ∧
      SameAnswer a b ∧
      a.2.stdout = " 3<Component: roAssociativeArray> =\n\x7b\n    count: 3\n\x7d\n" := by
  have hsmall : Statement.spelledAll .small
        (countingMain "Bag" "BAG" "Again" "AGAIN" "Count" "cOUNT") =
      Statement.spelledAll .small
        (countingMain "bag" "bAg" "again" "aGAIN" "COUNT" "count") := by
    obtain ⟨h₁, h₂, h₃, h₄, h₅, h₆⟩ : Text.fold "Bag" = Text.fold "bag" ∧
        Text.fold "BAG" = Text.fold "bAg" ∧ Text.fold "Again" = Text.fold "again" ∧
        Text.fold "AGAIN" = Text.fold "aGAIN" ∧ Text.fold "Count" = Text.fold "COUNT" ∧
        Text.fold "cOUNT" = Text.fold "count" := by decide
    rw [spelledAll_countingMain (by decide), spelledAll_countingMain (by decide),
      h₁, h₂, h₃, h₄, h₅, h₆]
  have hdebugger : (Session.new .standard).debugger.Ignores .small := trivial
  have halike : Option.Rel SameAnswer
      ((Session.new .standard).exec 9
        (countingMain "Bag" "BAG" "Again" "AGAIN" "Count" "cOUNT") [])
      ((Session.new .standard).exec 9
        (countingMain "bag" "bAg" "again" "aGAIN" "COUNT" "count") []) :=
    case_insensitive_execution rfl hdebugger hsmall rfl 9
  have hstdout : ((Session.new .standard).exec 9
      (countingMain "Bag" "BAG" "Again" "AGAIN" "Count" "cOUNT") []).map (fun a => a.2.stdout) =
        some " 3<Component: roAssociativeArray> =\n\x7b\n    count: 3\n\x7d\n" := by
    decide +kernel
  obtain ⟨a, ha, hprinted⟩ := Option.map_eq_some_iff.1 hstdout
  rw [ha] at halike
  generalize hb : (Session.new .standard).exec 9
    (countingMain "bag" "bAg" "again" "aGAIN" "COUNT" "count") [] = other at halike
  cases halike with
  | some halike => exact ⟨a, _, ha, rfl, halike, hprinted⟩

end BrightScript
