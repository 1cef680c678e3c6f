import BrightScript.Proofs.ErrorAccounting
import BrightScript.Proofs.Mirror.Statement

/-!
# Well-typed receivers

A value is sound if all that it is made of is well typed: boxes hold neither objects nor
uninitialized values, and methods are bound to objects of their own component (`Value.sound_iff`).
In a run that the host gives sound arguments, everything that is stored anywhere is sound whenever
an expression or a statement is started, and so are the function and the arguments of every call. To
say so, sessions are watched (`Evaluator.watched`) and calls are inspected (`Evaluator.inspected`):
what is started in an unsound session, or called with an unsound function or argument, is replaced
by anything else, and the run stays the same. Hence no method meets an object of another component,
and the error for it is never raised.
-/

namespace BrightScript

/-! ## The parts of a value -/

/-- A value is part of another: the value itself, the content of a box, or the object that a method
is bound to. -/
inductive Value.Contains : Value → Value → Prop
  | self (v : Value) : Contains v v
  | content {v w : Value} : Contains v w → Contains (.boxed v) w
  | receiver {i : Identity} {m : Method} {v w : Value} {context : Option AssocRef} :
      Contains v w → Contains (.function ⟨i, .method m v, context⟩) w

/-- A box holds neither an object nor an uninitialized value, and a method is bound to an object of
its component. -/
def Value.WellTyped : Value → Prop
  | .boxed v => v.isObject = false ∧ v ≠ .uninitialized
  | .function ⟨_, .method m receiver, _⟩ => receiver.component? = some m.component
  | _ => True

theorem Value.Sound.contained {v w : Value} (hv : v.Sound) (h : v.Contains w) : w.Sound := by
  induction h with
  | self => exact hv
  | content _ ih => exact ih hv.2
  | receiver _ ih => exact ih hv.2

theorem Value.Sound.wellTyped {v : Value} (hv : v.Sound) : v.WellTyped := by
  cases v with
  | boxed content => exact (Value.isBoxable_iff content).1 hv.1
  | function c =>
    obtain ⟨i, target, context⟩ := c
    cases target with
    | method m receiver => exact hv.1
    | _ => trivial
  | _ => trivial

mutual

theorem Value.sound_of_contains : ∀ v : Value, (∀ w, v.Contains w → w.WellTyped) → v.Sound
  | .boxed content, h =>
    ⟨(Value.isBoxable_iff content).2 (h _ (.self _)),
      content.sound_of_contains fun w hw => h w (.content hw)⟩
  | .function c, h => c.sound_of_contains h
  | .invalid, _ | .uninitialized, _ | .boolean _, _ | .string _, _ | .integer _, _
  | .longInteger _, _ | .float _, _ | .double _, _ | .array _, _ | .assoc _, _ => trivial

theorem Callable.sound_of_contains : ∀ c : Callable,
    (∀ w, (Value.function c).Contains w → w.WellTyped) → c.Sound
  | ⟨_, .method _ receiver, _⟩, h =>
    ⟨h _ (.self _), receiver.sound_of_contains fun w hw => h w (.receiver hw)⟩
  | ⟨_, .procedure _, _⟩, _ | ⟨_, .builtin _, _⟩, _ => trivial

end

theorem Value.sound_iff (v : Value) : v.Sound ↔ ∀ w, v.Contains w → w.WellTyped :=
  ⟨fun hv _ hw => (hv.contained hw).wellTyped, v.sound_of_contains⟩

mutual

def Value.decideSound : (v : Value) → Decidable v.Sound
  | .boxed content =>
    have := content.decideSound
    inferInstanceAs (Decidable (content.isBoxable = true ∧ content.Sound))
  | .function c => c.decideSound
  | .invalid | .uninitialized | .boolean _ | .string _ | .integer _ | .longInteger _ | .float _
  | .double _ | .array _ | .assoc _ => isTrue trivial

def Callable.decideSound : (c : Callable) → Decidable c.Sound
  | ⟨_, .method m receiver, _⟩ =>
    have := receiver.decideSound
    inferInstanceAs (Decidable (receiver.component? = some m.component ∧ receiver.Sound))
  | ⟨_, .procedure _, _⟩ | ⟨_, .builtin _, _⟩ => isTrue trivial

end

instance : DecidablePred Value.Sound :=
  Value.decideSound

/-! ## Sound sessions -/

/-- The values that recorded errors and messages about them carry are sound. -/
structure ErrorLog.Sound (log : ErrorLog) : Prop where
  errors : ∀ e ∈ log.errors, e.Holds Value.Sound
  notices : ∀ notice ∈ log.notices, notice.error.Holds Value.Sound

theorem ErrorLog.Sound.record {log : ErrorLog} (h : log.Sound) {e : ScriptError}
    (he : e.Holds Value.Sound) : (log.record e).Sound := by
  refine ⟨fun e' he' => ?_, fun notice hn => ?_⟩
  · obtain he' | he' := List.mem_append.1 he'
    · exact h.errors e' he'
    · rwa [List.mem_singleton.1 he']
  · obtain hn | hn := List.mem_append.1 hn
    · exact h.notices notice hn
    · obtain ⟨_, -, rfl⟩ := List.mem_map.1 hn
      exact he

structure Session.Sound (s : Session) : Prop where
  holds : s.Holds Value.Sound
  log : s.log.Sound

theorem Session.Sound.note {s : Session} (hs : s.Sound) {e : ScriptError}
    (he : e.Holds Value.Sound) : (s.note e).Sound := by
  refine ⟨hs.holds.ofCore (Session.core_note s e), ?_⟩
  unfold Session.note
  split
  · exact hs.log
  · exact hs.log.record he

theorem Session.Sound.update {g : Grade} {f : Session → Session}
    (h : Update Value.Sound True g f) {s : Session} (hs : s.Sound) : (f s).Sound := by
  refine ⟨hs.holds.update h, ?_⟩
  have hlog := (Session.SameLog.update h s).log
  rw [hlog]
  exact hs.log

def Contract.soundness : Contract Value.Sound :=
  Invariant.contract {
    inv := Session.Sound
    admissible := .sound
    holds := fun hs => hs.holds
    update := fun hf hs => hs.update hf
    serviced := fun h hs => ⟨hs.holds.ofCore h.core, h.log ▸ hs.log⟩
    raise := fun he hs => hs.note he.holds
    tried := fun hs => ⟨⟨hs.holds.heap, hs.holds.scopes⟩, hs.log⟩
    untried := fun _ ht => ⟨⟨ht.holds.heap, ht.holds.scopes⟩, ht.log⟩
    unhelped := fun hs => ⟨hs.holds.withoutHelpers, hs.log⟩
    rewound := fun hs => ⟨⟨hs.holds.heap, hs.holds.scopes⟩, hs.log⟩
    entered := fun _ hs => ⟨hs.holds.entered _ _, hs.log⟩
    returnedTo := fun hs ht => ⟨hs.holds.returnedTo ht.holds _, ht.log⟩ }

theorem Session.BetweenRuns.sound {s : Session} (h : s.BetweenRuns Value.Sound) : s.Sound := by
  induction h with
  | new options =>
    have hempty : (Session.new options).log.Sound :=
      ⟨fun _ h => absurd h List.not_mem_nil, fun _ h => absurd h List.not_mem_nil⟩
    exact ⟨.new .sound options, hempty⟩
  | exec _ hargs hexec ih => exact (Contract.soundness.exec hargs ih hexec).inv
  | share _ hheap ih => exact ⟨⟨hheap, ih.holds.scopes⟩, ih.log⟩
  | clock _ _ ih | suspend _ _ ih | debug _ _ ih =>
    exact ⟨⟨ih.holds.heap, ih.holds.scopes⟩, ih.log⟩
  | observe _ _ ih | ignore _ _ ih =>
    exact ⟨⟨ih.holds.heap, ih.holds.scopes⟩, ih.log.errors, ih.log.notices⟩

/-! ## Inspected calls -/

namespace Evaluator

variable (otherwise : Callable → List Value → Run Value)

/-- A call expression whose call is replaced if the function or an argument is not sound. -/
def inspectedCall (ev : Evaluator) (budget : Nat) (callee : Expr) (args : List Expr)
    (optional : Bool) (closing : Location) : Run Value := do
  let f ← ev.evaluate callee
  let values ← ev.evaluateAll args
  match f with
  | .function c | .boxed (.function c) =>
    if (Value.function c).Sound ∧ ∀ v ∈ values, v.Sound then
      let context := if keepsContext callee then c.context else none
      ev.call budget c values context callee.location closing
    else otherwise c values
  | .invalid => if optional then return .invalid else Run.fault .notAFunction closing
  | _ => Run.fault .notAFunction closing

def inspectedExpression (ev : Evaluator) (budget : Nat) (e : Expr) : Run Value :=
  match e with
  | .call callee args optional closing location => do
    Run.moveTo location
    ev.inspectedCall otherwise budget callee args optional closing
  | _ => ev.expression budget e

def inspected : (budget : Nat) → Evaluator
  | 0 => ofBudget 0
  | n + 1 =>
    ⟨(inspected n).inspectedExpression otherwise n, (inspected n).statement n⟩

section Related

variable {ev ev' : Evaluator} (h : Contract.soundness.simulation.Related ev ev')
include h

theorem inspectedCall_related (budget : Nat) (callee : Expr) (args : List Expr) (optional : Bool)
    (closing : Location) :
    Contract.soundness.simulation.rel .expression Value.Sound
      (ev.inspectedCall otherwise budget callee args optional closing)
      (ev'.callExpression (ev'.invoke budget) callee args optional closing) := by
  let sim := Contract.soundness.simulation
  refine sim.bind (h.evaluate callee) fun f hf => ?_
  refine sim.bind (sim.evaluateAll h args) fun values hvalues => ?_
  cases f with
  | function c =>
    dsimp only
    rw [if_pos ⟨hf, hvalues⟩]
    exact sim.call h budget hf hvalues _ _ _
  | boxed content =>
    cases content with
    | function c =>
      dsimp only
      rw [if_pos ⟨hf.2, hvalues⟩]
      exact sim.call h budget hf.2 hvalues _ _ _
    | _ => exact sim.fault
  | invalid =>
    cases optional with
    | true => exact sim.plain rfl
    | false => exact sim.fault
  | _ => exact sim.fault

theorem inspectedExpression_related (budget : Nat) (e : Expr) :
    Contract.soundness.simulation.rel .expression Value.Sound
      (ev.inspectedExpression otherwise budget e) (ev'.expression budget e) := by
  cases e with
  | call callee args optional closing location =>
    exact Contract.soundness.simulation.bind Contract.soundness.simulation.moveTo fun _ _ =>
      inspectedCall_related otherwise h budget callee args optional closing
  | _ => exact Contract.soundness.simulation.expression h budget _

end Related

theorem inspected_related (n : Nat) :
    Contract.soundness.simulation.Related (inspected otherwise n) (ofBudget n) := by
  induction n with
  | zero => exact Contract.soundness.simulation.ofBudget 0
  | succ n ih =>
    exact ⟨inspectedExpression_related otherwise ih n,
      Contract.soundness.simulation.statement ih n⟩

end Evaluator

/-! ## Runs -/

/-- A sound method of arrays is bound to an array, and one of associative arrays to an associative
array. -/
theorem Value.Sound.receiver {i : Identity} {m : Method} {receiver : Value}
    {context : Option AssocRef} (h : (Value.function ⟨i, .method m receiver, context⟩).Sound) :
    (∀ am, m = .array am → ∃ r, receiver = .array r) ∧
      ∀ am, m = .assoc am → ∃ r, receiver = .assoc r := by
  refine ⟨?_, ?_⟩
  · rintro am rfl
    exact Classical.byContradiction fun hne =>
      Walk.component?_ne_array (fun r hr => hne ⟨r, hr⟩) h.1
  · rintro am rfl
    exact Classical.byContradiction fun hne =>
      Walk.component?_ne_assocArray (fun r hr => hne ⟨r, hr⟩) h.1

/-- For every session that a host has between runs, every script and every budget, if what the host
brings in is sound. What is stored is sound, before the run and wherever an expression or a
statement is started in it, because it makes no difference what would be done in an unsound session.
The function and the arguments of every call are sound, because it makes no difference what would be
called otherwise. So is the result or the error of the script. A sound value has well-typed parts
only, and its methods of arrays and associative arrays are bound to such. -/
theorem receivers_well_typed [DecidablePred Session.Sound] {s : Session}
    (hs : s.BetweenRuns Value.Sound) {args : List Value} (hargs : ∀ v ∈ args, v.Sound) (n : Nat)
    (statements : List Statement) :
    s.Sound ∧
    (∀ otherwise, (Evaluator.watched Session.Sound otherwise n).script n statements args s =
      Run.script n statements args s) ∧
    (∀ otherwise, (Evaluator.inspected otherwise n).script n statements args s =
      Run.script n statements args s) ∧
    (∀ r t, s.exec n statements args = some (r, t) → t.Sound ∧
      match r with
      | .ok finish => finish.value.Sound
      | .error e => e.Holds Value.Sound) ∧
    (∀ v : Value, v.Sound ↔ ∀ w, v.Contains w → w.WellTyped) ∧
    ∀ (i : Identity) (m : Method) (receiver : Value) (context : Option AssocRef),
      (Value.function ⟨i, .method m receiver, context⟩).Sound →
        (∀ am, m = .array am → ∃ r, receiver = .array r) ∧
          ∀ am, m = .assoc am → ∃ r, receiver = .assoc r := by
  let k := Contract.soundness
  have hsound := hs.sound
  refine ⟨hsound, fun otherwise => ?_, fun otherwise => ?_, fun r t h => ?_, Value.sound_iff,
    fun _ _ _ _ h => h.receiver⟩
  · have hwatched : k.simulation.Related (Evaluator.watched Session.Sound otherwise n)
        (Evaluator.ofBudget n) := k.watched (fun t (h : t.Sound) => h) otherwise n
    exact (k.script hwatched n statements hargs hsound).1
  · exact (k.script (Evaluator.inspected_related otherwise n) n statements hargs hsound).1
  · have hends := k.exec hargs hsound h
    refine ⟨hends.inv, ?_⟩
    have hresult := hends.ends
    rcases r with e | ⟨v, _ | _ | _⟩
    · exact hresult.1
    · exact hresult.1
    · exact hresult.1 ▸ trivial
    · exact hresult.1 ▸ trivial

/-- `function main(f)`, which puts `f` into an associative array and calls it from there. -/
def forwardingMain : Statement :=
  .declaration ⟨"main", .builtin⟩
    ⟨"main", [⟨⟨"f", .builtin⟩, .dynamic, none⟩], .dynamic, false,
      ⟨[.assignment ⟨"a", .builtin⟩
          (.assocLiteral [⟨"g", .reference ⟨"f", .builtin⟩⟩] .builtin) .builtin,
        .returning (some (.call (.dottedGet (.reference ⟨"a", .builtin⟩) ⟨"g", .builtin⟩ false
          .builtin) [] false .builtin .builtin)) .builtin], .builtin⟩, .builtin⟩

/-- The method of the text `abc` that gives its length. -/
def boundLength : Value :=
  .function (.ofMethod (.string .len) (.boxed (.string "abc")))

/-- The method is brought in by the host, stored in an associative array and called from there. -/
theorem receivers_well_typed_of_forwardingMain :
    boundLength.Sound ∧ ∃ r t, (Session.new .standard).exec 12 [forwardingMain] [boundLength] =
      some (r, t) ∧ r.toOption.bind (fun finish => finish.value.wholeNumber?) = some 3 ∧
      t.Sound := by
  have hargs : ∀ v ∈ [boundLength], v.Sound := by decide
  have hlength : ((Session.new .standard).exec 12 [forwardingMain] [boundLength]).bind
      (fun ended => ended.1.toOption.bind fun finish => finish.value.wholeNumber?) = some 3 := by
    decide +kernel
  obtain ⟨⟨r, t⟩, hexec, hvalue⟩ := Option.bind_eq_some_iff.1 hlength
  have : DecidablePred Session.Sound := fun _ => Classical.propDecidable _
  obtain ⟨-, -, -, hends, -⟩ :=
    receivers_well_typed (.new .standard) hargs 12 [forwardingMain]
  exact ⟨hargs _ (List.mem_singleton_self _), r, t, hexec, hvalue, (hends r t hexec).1⟩

end BrightScript
