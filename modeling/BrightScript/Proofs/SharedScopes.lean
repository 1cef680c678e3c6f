import BrightScript.Proofs.Frames
import BrightScript.Proofs.Interruptions

/-!
# What all calls share is written once

Besides its own variables a call sees the global functions and the functions that scripts declared.
Runs never change the former, and to the latter they only add: a declaration binds a name that has
no function yet, and no statement replaces or removes a function.

That is a fact about any two moments of a run, not only about its start and its end. A moment is
given by a condition on sessions: evaluation halts where an expression or a statement is started in
such a session (`Evaluator.halted`), which leaves the shared bindings as they are there. Of two
moments of one run the earlier one is where it halts on either condition.
-/

namespace BrightScript

variable {α : Type} {s t : Session} {g : Grade} {a b : Scopes} {Q : α → Prop}

/-- What is shared in some bindings grew into what is shared in others: the global functions are the
same, and declared functions were only added, under names that are not reserved. -/
structure Scopes.GrowsTo (a b : Scopes) : Prop where
  globals : b.globals = a.globals
  kept : ∀ (key : String) (v : Value), a.modules[key]? = some v → b.modules[key]? = some v
  added : ∀ (key : String) (v : Value), b.modules[key]? = some v → a.modules[key]? = some v ∨
    key ∉ Identifier.reservedWords ∧
      ∃ body, v = .function ⟨.declared key, .procedure body, none⟩

namespace Scopes.GrowsTo

theorem ofShared (hglobals : b.globals = a.globals) (hmodules : b.modules = a.modules) :
    a.GrowsTo b := by
  refine ⟨hglobals, ?_, ?_⟩
  · intro key v hv
    rw [hmodules]
    exact hv
  · intro key v hv
    rw [hmodules] at hv
    exact .inl hv

theorem refl (a : Scopes) : a.GrowsTo a :=
  ofShared rfl rfl

theorem trans {c : Scopes} (h : a.GrowsTo b) (h' : b.GrowsTo c) : a.GrowsTo c := by
  refine ⟨h'.globals.trans h.globals, ?_, ?_⟩
  · intro key v hv
    exact h'.kept key v (h.kept key v hv)
  · intro key v hv
    obtain hv | hnew := h'.added key v hv
    · exact h.added key v hv
    · exact .inr hnew

theorem declare (s : Scopes) {name : Identifier} (hname : name.isReserved = false)
    (body : Procedure) : s.GrowsTo (s.declare name body) := by
  obtain h | ⟨hfree, h⟩ := s.declare_cases name body
  · rw [h]
    exact refl s
  rw [h]
  refine ⟨rfl, ?_, ?_⟩
  · intro key v hv
    have hne : compare (Text.fold name.name) key ≠ .eq := by
      intro heq
      rw [Std.LawfulEqCmp.eq_of_compare heq] at hfree
      exact hfree (Std.ExtTreeMap.mem_iff_isSome_getElem?.2 (by rw [hv]; rfl))
    show (s.modules.insert _ _)[key]? = some v
    rw [Std.ExtTreeMap.getElem?_insert, if_neg hne]
    exact hv
  · intro key v hv
    replace hv : (s.modules.insert (Text.fold name.name)
        (.function (.ofDeclaration name.name body)))[key]? = some v := hv
    rw [Std.ExtTreeMap.getElem?_insert] at hv
    split at hv
    · next heq =>
      obtain rfl := Std.LawfulEqCmp.eq_of_compare heq
      refine .inr ⟨?_, _, (Option.some.inj hv).symm⟩
      intro hmem
      rw [Identifier.isReserved, List.contains_eq_mem, decide_eq_false_iff_not] at hname
      exact hname hmem
    · exact .inl hv

end Scopes.GrowsTo

/-! ## The contract -/

theorem Session.growsTo_ofCore (h : t.core = s.core) : s.scopes.GrowsTo t.scopes := by
  have hscopes : t.scopes = s.scopes := congrArg Core.scopes h
  rw [hscopes]
  exact .refl _

theorem Session.growsTo_update {P : Value → Prop} {f : Session → Session} (h : Update P True g f)
    (s : Session) : s.scopes.GrowsTo (f s).scopes := by
  cases h with
  | declare hname => exact .declare s.scopes hname _
  | _ => exact .ofShared rfl rfl

/-- Shared bindings only grow. -/
def Growth.sharedScopes : Growth where
  le s t := s.scopes.GrowsTo t.scopes
  refl _ := .refl _
  trans h h' := h.trans h'
  update := Session.growsTo_update
  serviced h := Session.growsTo_ofCore h.core
  note s e := Session.growsTo_ofCore (Session.core_note s e)
  framed h := by
    cases h <;> exact ⟨.ofShared rfl rfl, .ofShared rfl rfl⟩

def Contract.sharedScopes : Contract fun _ => True :=
  Growth.sharedScopes.contract

theorem Contract.growsTo_of_ends {o : Outcome Signal Session α} (h : sharedScopes.Ends g Q s o)
    (ho : o.state? = some t) : s.scopes.GrowsTo t.scopes :=
  Growth.of_ends (k := .sharedScopes) h ho

/-! ## Moments of a run -/

/-- Evaluation that ends the run where an expression or a statement is started in a session it is to
stop at. -/
def Evaluator.halted (stop : Session → Prop) [DecidablePred stop] (budget : Nat) : Evaluator :=
  watched (fun s => ¬ stop s)
    ⟨fun _ => Routine.leave (.ending .builtin), fun _ => Routine.leave (.ending .builtin)⟩ budget

/-- The second of two runs may be ended where it is to halt, and the first one goes on there. -/
def Interruption.halting : Interruption where
  growth := .sharedScopes
  pairs := Eq
  counts _ := True
  counts_of_le _ _ := trivial
  stops signal _ := signal = .ending .builtin
  final := by
    rintro _ u rfl
    exact ⟨rfl, fun e h => by cases h⟩
  framed _ h := h

/-- Runs that are cut short, with what they leave of the shared bindings. -/
def Simulation.moments : Simulation fun _ => True :=
  Interruption.halting.simulation fun _ => .refl rfl _

section Halting

variable {stop later : Session → Prop} [DecidablePred stop] [DecidablePred later]

/-- Of two runs that are to halt, the one that halts on more is the other one cut short. -/
theorem Simulation.moments_halting {x x' : Run α} (h : moments.rel g Q x x') :
    moments.rel g Q
      (fun s => if ¬ later s then x s else Routine.leave (.ending .builtin) s)
      (fun s => if ¬ (stop s ∨ later s) then x' s else Routine.leave (.ending .builtin) s) := by
  constructor
  · intro s hs
    refine ⟨rfl, ?_⟩
    dsimp only
    split
    · exact (h.1 s hs).2
    · exact ⟨trivial, trivial, .refl _⟩
  · intro s _ hs
    obtain ⟨_, rfl, rfl⟩ := hs
    show Interruption.halting.Follows (if ¬ later s then _ else _)
      (if ¬ (stop s ∨ later s) then _ else _)
    by_cases hlater : later s
    · rw [if_neg (not_not_intro hlater), if_neg (not_not_intro (.inr hlater))]
      exact .exit ⟨_, rfl, rfl⟩ _
    · by_cases hstop : stop s
      · rw [if_pos hlater, if_neg (not_not_intro (.inl hstop))]
        intro u hu _
        exact .inr ⟨_, s, rfl, rfl, Growth.of_ends (h.1 s trivial).2 hu⟩
      · rw [if_pos hlater, if_pos (not_or.2 ⟨hstop, hlater⟩)]
        exact h.2 s s ⟨_, rfl, rfl⟩

theorem Simulation.related_halted (budget : Nat) :
    moments.Related (Evaluator.halted later budget)
      (Evaluator.halted (fun s => stop s ∨ later s) budget) := by
  induction budget with
  | zero => exact moments.ofBudget 0
  | succ budget ih =>
    have nested := ih.succ moments budget
    exact ⟨fun e => moments_halting (nested.evaluate e),
      fun st => moments_halting (nested.execute st)⟩

/-- What is shared at any moment of a list of statements grew out of what was shared before. -/
theorem Evaluator.growsTo_halted {budget : Nat} {statements : List Statement}
    (h : ((halted stop budget).executeAll statements s).state? = some t) :
    s.scopes.GrowsTo t.scopes := by
  have related : Simulation.moments.Related (halted stop budget)
      (halted (fun s => stop s ∨ stop s) budget) := Simulation.related_halted budget
  have hkeeps := (Simulation.moments.executeAll related statements).1
  exact Contract.growsTo_of_ends (hkeeps s trivial).2 h

end Halting

/-! ## One session over time -/

/-- The sessions that a host has after another one. It runs scripts, and in between it changes
anything but the bindings. -/
inductive Session.Later (s : Session) : Session → Prop
  | refl : Later s s
  | exec {t u : Session} {budget : Nat} {statements : List Statement} {args : List Value}
      {r : Except ScriptError Finish} : Later s t →
        t.exec budget statements args = some (r, u) → Later s u
  | host {t u : Session} : Later s t → u.scopes = t.scopes → Later s u

theorem Session.growsTo_exec {budget : Nat} {statements : List Statement} {args : List Value}
    {r : Except ScriptError Finish} (h : s.exec budget statements args = some (r, t)) :
    s.scopes.GrowsTo t.scopes := by
  obtain ⟨u, hu, hcore⟩ := Session.core_exec h
  have hends := Contract.sharedScopes.program budget statements
    (fun v (_ : v ∈ args) => trivial) (s := s) trivial
  exact (Contract.growsTo_of_ends hends hu).trans (Session.growsTo_ofCore hcore)

theorem Session.Later.growsTo (h : s.Later t) : s.scopes.GrowsTo t.scopes := by
  induction h with
  | refl => exact .refl _
  | exec _ hexec ih => exact ih.trans (Session.growsTo_exec hexec)
  | host _ hscopes ih => rwa [hscopes]

theorem Session.BetweenRuns.later {P : Value → Prop} (h : s.BetweenRuns P) :
    ∃ options, (Session.new options).Later s := by
  induction h with
  | new options => exact ⟨options, .refl⟩
  | exec _ _ hexec ih => exact ih.imp fun _ h => h.exec hexec
  | share _ _ ih | clock _ _ ih | observe _ _ ih | ignore _ _ ih | suspend _ _ ih | debug _ _ ih =>
    exact ih.imp fun _ h => h.host rfl

theorem Session.locals_new (options : Options) :
    (Session.new options).scopes.active.locals = ∅ := by
  show ((Scopes.ofRoot _).withGlobals).active.locals = ∅
  rw [Scopes.active_withGlobals]
  rfl

end BrightScript
