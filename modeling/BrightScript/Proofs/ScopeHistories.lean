import Mathlib.Data.List.Induction
import BrightScript.Proofs.Simulation

/-!
# What names stand for

Module and global bindings are shared by all open calls; variables and `m` belong to one call each.
So what a name stands for is a matter of the history alone. In a scope it is the last thing done to
the name there (`Calls.latest?`), where a variable counts only what was done in the call itself, and
shared bindings count whichever call made them. The stack of calls is followed by a stack of
histories (`Calls.Trail`): entering a call opens an empty history, and coming back drops it.
-/

namespace BrightScript

variable {name : String} {location? : Option Location} {s : Scopes} {scope : Scope} {v : Value}
  {root : AssocRef}

/-- However a call ends, its caller goes on with the activation it had. -/
theorem Run.active_inCall {α : Type} {m : AssocRef} {frame? : Option Frame} {body : Run α}
    {s t : Session} (h : (Run.inCall m frame? body s).state? = some t) :
    t.scopes.active = s.scopes.active := by
  rw [Run.inCall, Routine.closing] at h
  cases hbody : body (s.entered m frame?) with
  | done v u =>
    rw [hbody] at h
    cases h
    rfl
  | exit signal u =>
    rw [hbody] at h
    cases h
    rfl
  | exhausted =>
    rw [hbody] at h
    cases h

/-- The bindings that can be seen, and the calls around the current one, the innermost first. -/
structure Calls where
  scopes : Scopes
  callers : List Activation

namespace Calls

/-- What can be done to bindings and calls. -/
inductive Operation where
  | define (scope : Scope) (name : String) (value : Value) (location? : Option Location)
  | remove (name : String) (scope : Scope)
  | setM (m : AssocRef)
  | enter
  /-- Comes back to the caller. The outermost level has none, and stays. -/
  | leave

/-- Nothing is bound, and no call was entered. -/
def ofRoot (m : AssocRef) : Calls :=
  ⟨.ofRoot m, []⟩

/-- The bindings and calls after an operation. A definition that is refused has no effect. -/
def step (c : Calls) : Operation → Calls
  | .define scope name v location? =>
    match c.scopes.define scope name v location? with
    | .ok scopes => { c with scopes := scopes }
    | .error _ => c
  | .remove name scope => { c with scopes := c.scopes.remove name scope }
  | .setM m => { c with scopes := c.scopes.setM m }
  | .enter => ⟨c.scopes.enter, c.scopes.active :: c.callers⟩
  | .leave =>
    match c.callers with
    | [] => c
    | caller :: outer => ⟨c.scopes.resume caller, outer⟩

def after (c : Calls) (history : List Operation) : Calls :=
  history.foldl step c

/-- The activations of the open calls, the innermost first. -/
def activations (c : Calls) : List Activation :=
  c.scopes.active :: c.callers

/-- What each open call sees, the innermost first. -/
def views (c : Calls) : List Scopes :=
  c.activations.map c.scopes.resume

/-! ## Histories -/

/-- Whether a definition is refused: that of a variable `global`, at a place in a script. -/
def isRefused (scope : Scope) (name : String) (location? : Option Location) : Bool :=
  scope == .function && Text.fold name == "global" && location?.isSome

namespace Operation

/-- What an operation does to a name in a scope: it gives it a value, it takes its value away
(`some none`), or it leaves it alone. Global bindings are never taken away. -/
def writes? (scope : Scope) (key : String) : Operation → Option (Option Value)
  | define target name v location? =>
    if target = scope ∧ Text.fold name = key ∧ isRefused target name location? = false then
      some (some v)
    else none
  | remove name target =>
    if target = scope ∧ Text.fold name = key ∧ target ≠ .global then some none else none
  | _ => none

/-- The associative array that an operation makes the `m` of the current call. -/
def installs? : Operation → Option AssocRef
  | setM m => some m
  | define .function name (.assoc r) _ => if Text.fold name = "m" then some r else none
  | _ => none

/-- Whether an operation enters or leaves a call. -/
def moves : Operation → Bool
  | enter | leave => true
  | _ => false

/-- Whether an operation defines or removes a variable. -/
def isLocal : Operation → Bool
  | define .function _ _ _ | remove _ .function => true
  | _ => false

end Operation

variable {operation : Operation}

/-- The value that the last of some operations on a name in a scope has left there. -/
def latest? (scope : Scope) (key : String) (operations : List Operation) : Option Value :=
  (operations.filterMap (·.writes? scope key)).getLast?.join

/-- The associative array that the last of some operations to install one has made `m`. -/
def lastInstalled? (operations : List Operation) : Option AssocRef :=
  (operations.filterMap Operation.installs?).getLast?

/-- The `m` of a call, given what was done in it and in the calls around it: a call in which none
was installed has that of its caller. -/
def heldBy (root : AssocRef) : List (List Operation) → AssocRef
  | [] => root
  | own :: outer => (lastInstalled? own).getD (heldBy root outer)

/-- What was done in the current call, and in the calls around it, the innermost first. -/
structure Trail where
  own : List Operation
  outer : List (List Operation)

namespace Trail

/-- What was done in each open call, the innermost first. -/
def calls (t : Trail) : List (List Operation) :=
  t.own :: t.outer

/-- What was done in the open calls after one more operation. -/
def step (t : Trail) : Operation → Trail
  | .enter => ⟨[], t.own :: t.outer⟩
  | .leave =>
    match t.outer with
    | [] => t
    | own :: outer => ⟨own, outer⟩
  | operation => { t with own := t.own ++ [operation] }

/-- What was done in the calls that a history has left open. -/
def ofHistory (history : List Operation) : Trail :=
  history.foldl step ⟨[], []⟩

end Trail

/-- Operations in which every call that is entered is also left, and no other. -/
inductive Balanced : List Operation → Prop
  | nil : Balanced []
  | own {operation : Operation} {rest : List Operation} (hown : operation.moves = false)
      (hrest : Balanced rest) : Balanced (operation :: rest)
  | call {body rest : List Operation} (hbody : Balanced body) (hrest : Balanced rest) :
      Balanced (.enter :: body ++ .leave :: rest)

theorem latest?_concat (scope : Scope) (key : String) (operations : List Operation)
    (operation : Operation) :
    latest? scope key (operations ++ [operation]) =
      (operation.writes? scope key).getD (latest? scope key operations) := by
  unfold latest?
  rw [List.filterMap_append]
  cases hwrites : operation.writes? scope key with
  | none | some => simp [hwrites]

theorem lastInstalled?_concat (operations : List Operation) (operation : Operation) :
    lastInstalled? (operations ++ [operation]) =
      operation.installs?.or (lastInstalled? operations) := by
  unfold lastInstalled?
  rw [List.filterMap_append]
  cases hinstalls : operation.installs? with
  | none | some => simp [hinstalls]

theorem after_append (c : Calls) (before rest : List Operation) :
    c.after (before ++ rest) = (c.after before).after rest :=
  List.foldl_append

/-! ## One operation -/

theorem define_eq_error (h : isRefused scope name location? = true) :
    ∃ e, s.define scope name v location? = .error e := by
  simp only [isRefused, Bool.and_eq_true, beq_iff_eq, Option.isSome_iff_exists] at h
  obtain ⟨⟨rfl, hname⟩, location, rfl⟩ := h
  exact ⟨_, if_pos hname⟩

theorem defineLocal_eq_ok (h : isRefused .function name location? = false) :
    s.define .function name v location? = .ok (s.bind name v) := by
  cases location? with
  | none => rfl
  | some location =>
    have hname : Text.fold name ≠ "global" := by simpa [isRefused] using h
    exact if_neg hname

theorem define_eq_error_iff :
    (∃ e, s.define scope name v location? = .error e) ↔
      scope = .function ∧ Text.fold name = "global" ∧ location?.isSome = true := by
  constructor
  · rintro ⟨e, he⟩
    cases hrefused : isRefused scope name location? with
    | true => simpa [isRefused, and_assoc] using hrefused
    | false =>
      cases scope with
      | function =>
        rw [defineLocal_eq_ok hrefused] at he
        cases he
      | module | global => cases he
  · rintro ⟨rfl, hname, hlocation⟩
    exact define_eq_error (by simp [isRefused, hname, hlocation])

theorem step_define_of_isRefused (c : Calls) (v : Value)
    (h : isRefused scope name location? = true) : c.step (.define scope name v location?) = c := by
  obtain ⟨e, he⟩ := define_eq_error (s := c.scopes) (v := v) h
  simp [step, he]

theorem step_define_function (c : Calls) (v : Value)
    (h : isRefused .function name location? = false) :
    c.step (.define .function name v location?) = { c with scopes := c.scopes.bind name v } := by
  simp [step, defineLocal_eq_ok h]

theorem bindings_step_define (c : Calls) {target : Scope} (v : Value)
    (h : isRefused target name location? = false) (scope : Scope) :
    (c.step (.define target name v location?)).scopes.bindings scope =
      if target = scope then (c.scopes.bindings scope).insert (Text.fold name) v
      else c.scopes.bindings scope := by
  cases target with
  | function =>
    rw [step_define_function c v h]
    cases scope <;> rfl
  | module | global => cases scope <;> rfl

theorem bindings_step_remove (c : Calls) (name : String) (target scope : Scope) :
    (c.step (.remove name target)).scopes.bindings scope =
      if target = scope ∧ target ≠ .global then (c.scopes.bindings scope).erase (Text.fold name)
      else c.scopes.bindings scope := by
  cases target <;> cases scope <;> rfl

/-- An operation does to each scope what it says. That of the variables is another one where a call
is entered or left. -/
theorem getElem?_bindings_step (c : Calls) (operation : Operation) (scope : Scope)
    (hown : operation.moves = false ∨ scope ≠ .function) (key : String) :
    ((c.step operation).scopes.bindings scope)[key]? =
      (operation.writes? scope key).getD (c.scopes.bindings scope)[key]? := by
  cases operation with
  | define target name v location? =>
    cases hrefused : isRefused target name location? with
    | true => simp [step_define_of_isRefused c v hrefused, Operation.writes?, hrefused]
    | false =>
      rw [bindings_step_define c v hrefused]
      by_cases hscope : target = scope
      · subst hscope
        by_cases hkey : Text.fold name = key <;>
          simp [Operation.writes?, hrefused, hkey, Std.ExtTreeMap.getElem?_insert]
      · simp [Operation.writes?, hscope]
  | remove name target =>
    rw [bindings_step_remove]
    by_cases hscope : target = scope ∧ target ≠ .global
    · obtain ⟨rfl, hglobal⟩ := hscope
      by_cases hkey : Text.fold name = key <;>
        simp [Operation.writes?, hglobal, hkey, Std.ExtTreeMap.getElem?_erase]
    · have hnot : ¬ (target = scope ∧ Text.fold name = key ∧ target ≠ .global) :=
        fun h => hscope ⟨h.1, h.2.2⟩
      simp [Operation.writes?, hscope, hnot]
  | setM m => cases scope <;> rfl
  | enter =>
    cases scope with
    | function => simp [Operation.moves] at hown
    | module | global => rfl
  | leave =>
    obtain ⟨scopes, callers⟩ := c
    cases scope with
    | function => simp [Operation.moves] at hown
    | module | global => cases callers <;> rfl

theorem m_step (c : Calls) (hown : operation.moves = false) :
    (c.step operation).scopes.active.m = operation.installs?.getD c.scopes.active.m := by
  cases operation with
  | define target name v location? =>
    cases hrefused : isRefused target name location? with
    | true =>
      rw [step_define_of_isRefused c v hrefused]
      obtain ⟨⟨rfl, hname⟩, -⟩ :
          (target = .function ∧ Text.fold name = "global") ∧ location?.isSome = true := by
        simpa [isRefused] using hrefused
      cases v <;> simp [Operation.installs?, hname]
    | false =>
      cases target with
      | function =>
        rw [step_define_function c v hrefused]
        cases v with
        | assoc r =>
          by_cases hname : Text.fold name = "m" <;> simp [Scopes.bind, Operation.installs?, hname]
        | _ => rfl
      | module | global => rfl
  | remove name target => cases target <;> rfl
  | setM m => rfl
  | enter | leave => cases hown

theorem callers_step (c : Calls) (hown : operation.moves = false) :
    (c.step operation).callers = c.callers := by
  cases operation with
  | define target name v location? =>
    rw [step]
    split <;> rfl
  | remove | setM => rfl
  | enter | leave => cases hown

/-! ## Whole histories -/

/-- Activations are what operations in each of the open calls have made of them. -/
def Matches (root : AssocRef) : List Activation → List (List Operation) → Prop
  | [], [] => True
  | a :: activations, own :: outer =>
    (∀ key, a.locals[key]? = latest? .function key own) ∧ a.m = heldBy root (own :: outer) ∧
      Matches root activations outer
  | _, _ => False

theorem Matches.step {c : Calls} {t : Trail} (h : Matches root c.activations t.calls)
    (operation : Operation) :
    Matches root (c.step operation).activations (t.step operation).calls := by
  obtain ⟨hlocals, hm, houter⟩ := h
  cases hmoves : operation.moves with
  | false =>
    have hstep : t.step operation = { t with own := t.own ++ [operation] } := by
      cases operation <;> first | rfl | cases hmoves
    rw [hstep]
    refine ⟨fun key => ?_, ?_, ?_⟩
    · rw [latest?_concat, ← hlocals key]
      exact c.getElem?_bindings_step operation .function (.inl hmoves) key
    · rw [c.m_step hmoves, hm, heldBy, heldBy, lastInstalled?_concat]
      cases operation.installs? <;> rfl
    · rw [c.callers_step hmoves]
      exact houter
  | true =>
    cases operation with
    | enter => exact ⟨fun key => Std.ExtTreeMap.getElem?_empty, hm, hlocals, hm, houter⟩
    | leave =>
      obtain ⟨scopes, callers⟩ := c
      obtain ⟨own, outer⟩ := t
      cases callers with
      | nil =>
        cases outer with
        | nil => exact ⟨hlocals, hm, houter⟩
        | cons => cases houter
      | cons caller callers =>
        cases outer with
        | nil => cases houter
        | cons => exact houter
    | _ => cases hmoves

theorem matches_after (root : AssocRef) (history : List Operation) :
    Matches root ((ofRoot root).after history).activations (Trail.ofHistory history).calls := by
  induction history using List.reverseRecOn with
  | nil => exact ⟨fun key => Std.ExtTreeMap.getElem?_empty, rfl, trivial⟩
  | append_singleton history operation ih =>
    rw [after_append, Trail.ofHistory, List.foldl_append]
    exact ih.step operation

/-- What is known about the call at a place of the stack. By induction on the place. -/
theorem Matches.getElem? {activations : List Activation} {calls outer : List (List Operation)}
    {a : Activation} {own : List Operation} {i : Nat} (h : Matches root activations calls)
    (ha : activations[i]? = some a) (hcalls : calls.drop i = own :: outer) :
    (∀ key, a.locals[key]? = latest? .function key own) ∧ a.m = heldBy root (own :: outer) := by
  induction i generalizing activations calls with
  | zero =>
    cases activations with
    | nil => cases ha
    | cons first rest =>
      cases ha
      rw [List.drop_zero] at hcalls
      rw [hcalls] at h
      exact ⟨h.1, h.2.1⟩
  | succ i ih =>
    cases activations with
    | nil => cases ha
    | cons first rest =>
      cases calls with
      | nil => cases hcalls
      | cons own' outer' => exact ih h.2.2 ha hcalls

theorem Matches.length_eq {activations : List Activation} {calls : List (List Operation)}
    (h : Matches root activations calls) : activations.length = calls.length := by
  induction activations generalizing calls with
  | nil =>
    cases calls with
    | nil => rfl
    | cons => cases h
  | cons a activations ih =>
    cases calls with
    | nil => cases h
    | cons own outer => simp [ih h.2.2]

/-- Shared bindings are those of the whole history, whichever call made them. -/
theorem getElem?_bindings_after (root : AssocRef) (history : List Operation) (scope : Scope)
    (hscope : scope ≠ .function) (key : String) :
    (((ofRoot root).after history).scopes.bindings scope)[key]? = latest? scope key history := by
  induction history using List.reverseRecOn with
  | nil => cases scope <;> rfl
  | append_singleton history operation ih =>
    rw [after_append, latest?_concat, ← ih]
    exact getElem?_bindings_step _ operation scope (.inr hscope) key

theorem step_leave {c : Calls} {caller : Activation} {outer : List Activation}
    (h : c.callers = caller :: outer) : c.step .leave = ⟨c.scopes.resume caller, outer⟩ := by
  simp [step, h]

theorem callers_after_of_balanced {body : List Operation} (h : Balanced body) (c : Calls) :
    (c.after body).callers = c.callers := by
  induction h generalizing c with
  | nil => rfl
  | own hown hrest ih => exact (ih (c.step _)).trans (c.callers_step hown)
  | @call body rest hbody hrest ihbody ihrest =>
    have hleave := step_leave (ihbody (c.step .enter))
    calc (c.after (.enter :: body ++ .leave :: rest)).callers
      _ = ((((c.step .enter).after body).step .leave).after rest).callers :=
        congrArg callers (after_append c (.enter :: body) (.leave :: rest))
      _ = (((c.step .enter).after body).step .leave).callers := ihrest _
      _ = c.callers := by rw [hleave]

/-- A call that is entered and left, with any calls inside, gives the caller back its activation. -/
theorem activations_after_call {body : List Operation} (h : Balanced body) (c : Calls) :
    (c.after (.enter :: body ++ [.leave])).activations = c.activations := by
  have hleave := step_leave (callers_after_of_balanced h (c.step .enter))
  have hafter : c.after (.enter :: body ++ [.leave]) = ((c.step .enter).after body).step .leave :=
    after_append c (.enter :: body) [.leave]
  rw [hafter, hleave]
  rfl

theorem views_step_of_isLocal (c : Calls) (h : operation.isLocal = true) :
    (c.step operation).views.tail = c.views.tail ∧
      ∀ scope, scope ≠ .function →
        (c.step operation).scopes.bindings scope = c.scopes.bindings scope := by
  cases operation with
  | define target name v location? =>
    cases target with
    | function =>
      cases hrefused : isRefused .function name location? with
      | true => simp [step_define_of_isRefused c v hrefused]
      | false =>
        rw [step_define_function c v hrefused]
        refine ⟨rfl, fun scope hscope => ?_⟩
        cases scope with
        | function => exact absurd rfl hscope
        | module | global => rfl
    | module | global => cases h
  | remove name target =>
    cases target with
    | function =>
      refine ⟨rfl, fun scope hscope => ?_⟩
      rw [bindings_step_remove, if_neg fun heq => hscope heq.1.symm]
    | module | global => cases h
  | setM | enter | leave => cases h

/-- After any operations, a name stands in every open call for the variable that was last bound in
that call and not removed since, else for the module binding last made in any call and not removed
since, else for the global binding, else for nothing. Names are compared without regard to case, and
`m` is the associative array last installed in the call, or else that of its caller. A variable is
defined or removed for one call only. A call starts without variables and with the `m` of its
caller, and the caller gets back what it had, whatever happens in between; so it is for the calls of
a run. A definition that fails changes nothing. -/
theorem names_resolve (root : AssocRef) (history : List Operation) :
    let c := (ofRoot root).after history
    let calls := (Trail.ofHistory history).calls
    c.views.length = calls.length ∧
    (∀ (i : Nat) (view : Scopes) (own : List Operation) (outer : List (List Operation)),
      c.views[i]? = some view → calls.drop i = own :: outer →
      (∀ name : Identifier, Text.fold name.name ≠ "m" → Text.fold name.name ≠ "line_num" →
        view.get? name =
          (latest? .function (Text.fold name.name) own <|>
            latest? .module (Text.fold name.name) history <|>
              latest? .global (Text.fold name.name) history)) ∧
      ∀ name : Identifier, Text.fold name.name = "m" →
        view.get? name = some (.assoc ((lastInstalled? own).getD (heldBy root outer)))) ∧
    (∀ operation : Operation, operation.isLocal = true →
      (c.step operation).views.tail = c.views.tail ∧
        ∀ scope, scope ≠ .function →
          (c.step operation).scopes.bindings scope = c.scopes.bindings scope) ∧
    ((c.step .enter).scopes.bindings .function = ∅ ∧ (c.step .enter).scopes.m = c.scopes.m ∧
      (c.step .enter).views.tail = c.views) ∧
    (∀ body, Balanced body → (c.after (.enter :: body ++ [.leave])).activations = c.activations) ∧
    (∀ {α : Type} (m : AssocRef) (frame? : Option Frame) (body : Run α) (s t : Session),
      s.scopes = c.scopes → (Run.inCall m frame? body s).state? = some t →
      (s.entered m frame?).scopes = ((c.step .enter).step (.setM m)).scopes ∧
        t.scopes.active = c.scopes.active) ∧
    ∀ (scope : Scope) (name : String) (v : Value) (location? : Option Location),
      ((∃ e, c.scopes.define scope name v location? = .error e) ↔
        scope = .function ∧ Text.fold name = "global" ∧ location?.isSome = true) ∧
      ∀ e, c.scopes.define scope name v location? = .error e →
        c.step (.define scope name v location?) = c := by
  intro c calls
  have hmatches : Matches root c.activations calls := matches_after root history
  have hmodules (key : String) : c.scopes.modules[key]? = latest? .module key history :=
    getElem?_bindings_after root history .module (by decide) key
  have hglobals (key : String) : c.scopes.globals[key]? = latest? .global key history :=
    getElem?_bindings_after root history .global (by decide) key
  refine ⟨?_, ?_, fun operation h => c.views_step_of_isLocal h, ⟨rfl, rfl, rfl⟩,
    fun body h => activations_after_call h c, ?_, fun scope name v location? =>
      ⟨define_eq_error_iff, fun e he => by simp [step, he]⟩⟩
  · rw [views, List.length_map]
    exact hmatches.length_eq
  · intro i view own outer hview hcalls
    obtain ⟨a, ha, rfl⟩ : ∃ a, c.activations[i]? = some a ∧ c.scopes.resume a = view := by
      simpa [views] using hview
    obtain ⟨hlocals, hm⟩ := hmatches.getElem? ha hcalls
    refine ⟨fun name hname hline => ?_, fun name hname => ?_⟩
    · rw [← hlocals, ← hmodules, ← hglobals]
      simp [Scopes.get?, Scopes.resume, hname, hline]
    · rw [← heldBy, ← hm]
      simp [Scopes.get?, Scopes.resume, hname]
  · intro α m frame? body s t hs ht
    have hentered : s.scopes.resume (.fresh m) = c.scopes.resume (.fresh m) := by rw [hs]
    exact ⟨hentered, hs ▸ Run.active_inCall ht⟩

end Calls

end BrightScript
