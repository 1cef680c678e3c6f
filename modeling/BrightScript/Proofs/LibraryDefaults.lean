import BrightScript.Proofs.Parameters

/-!
# Arguments that library functions are not given

A parameter of a library function can have a constant as its default. The function is run on the
arguments that were given, and what it does about missing ones is its own matter. So a default that
is declared and what the function does without an argument can come apart. They agree for every
global function and every method but one: `StrI` declares the base ten and gives an empty text when
it is not told a base.

Library functions do not look at the variables of the call they run in, so a call of one is the same
as running it in place, up to the frame that the debugger is shown when it fails.
-/

namespace BrightScript

variable {c : Callable} {args : List Value} {chosen : Satisfied}

def Argument.constant? (a : Argument) : Option Value :=
  match a.default? with
  | some (.literal value _) => some (.ofLiteral value)
  | _ => none

/-- Arguments, followed by the defaults of the parameters behind them. -/
def Signature.complete (s : Signature) (args : List Value) : List Value :=
  args ++ (s.arguments.drop args.length).filterMap Argument.constant?

/-! ## Runs in another frame -/

def Session.inFrame (s : Session) (active : Activation) : Session :=
  { s with scopes := s.scopes.resume active }

def Outcome.mapState {ε σ α : Type} (f : σ → σ) : Outcome ε σ α → Outcome ε σ α
  | .done a t => .done a (f t)
  | .exit e t => .exit e (f t)
  | .exhausted => .exhausted

/-- A run that does the same in every frame and leaves the frame alone. -/
def Run.Frameless {α : Type} (x : Run α) : Prop :=
  ∀ (s : Session) (active : Activation),
    x (s.inFrame active) = (x s).mapState (·.inFrame active)

namespace Run.Frameless

variable {α β : Type}

theorem bind {x : Run α} {f : α → Run β} (hx : Frameless x) (hf : ∀ a, Frameless (f a)) :
    Frameless (x >>= f) := by
  intro s active
  rw [Routine.bind_apply, Routine.bind_apply, hx s active]
  cases x s with
  | done a t => exact hf a t active
  | exit | exhausted => rfl

theorem pure (a : α) : Frameless (Pure.pure a) :=
  fun _ _ => rfl

theorem raise (e : ScriptError) : Frameless (Run.raise e : Run α) := by
  intro s active
  have hnote (e' : ScriptError) : (s.inFrame active).note e' = (s.note e').inFrame active := by
    show (if s.tryMode then _ else _) = _
    unfold Session.note
    split <;> rfl
  exact congrArg (Outcome.exit _) (hnote _)

theorem faultHere (f : Fault) : Frameless (Run.faultHere f : Run α) :=
  fun s active => raise (.ofFault f s.location) s active

theorem newItems (entries : List Entry) : Frameless (Library.newItems entries) := by
  induction entries with
  | nil => exact pure []
  | cons e rest ih =>
    have hitem (members : List (String × Value)) :
        Frameless (Run.newAssoc (.ofMembers members)) := fun _ _ => rfl
    exact bind (hitem _) fun item => bind ih fun items => pure (item :: items)

theorem arrayMethod (m : ArrayMethod) (r : ArrayRef) (args : List Value) :
    Frameless (Library.arrayMethod m r args) := by
  cases m with
  | push | unshift =>
    cases args with
    | nil | cons => exact fun _ _ => rfl
  | append =>
    simp only [Library.arrayMethod]
    split
    · exact fun _ _ => rfl
    · exact fun _ _ => rfl
  | getEntry =>
    simp only [Library.arrayMethod]
    split
    · exact fun _ _ => rfl
    · exact pure _
  | setEntry =>
    simp only [Library.arrayMethod]
    split
    · split
      · exact fun _ _ => rfl
      · exact bind (faultHere _) fun _ => pure _
    · exact pure _
  | _ => exact fun _ _ => rfl

theorem assocMethod (m : AssocMethod) (r : AssocRef) (args : List Value) :
    Frameless (Library.assocMethod m r args) := by
  cases m with
  | items =>
    have hread : Frameless (Run.assoc r) := fun _ _ => rfl
    have hnew (items : List Value) : Frameless (Run.newArray (.ofList items)) := fun _ _ => rfl
    exact bind hread fun a => bind (newItems a.toList) fun items => hnew items
  | append =>
    simp only [Library.assocMethod]
    split
    · exact fun _ _ => rfl
    · exact fun _ _ => rfl
  | _ => exact fun _ _ => rfl

theorem stringMethod (m : StringMethod) (receiver : Value) (args : List Value) :
    Frameless (Library.stringMethod m receiver args) := by
  cases m with
  | instr =>
    intro s active
    show (if args.length < 2 then _ else _ : Run Value) _ =
      Outcome.mapState _ ((if args.length < 2 then _ else _ : Run Value) s)
    split <;> rfl
  | _ => exact fun _ _ => rfl

theorem create {name : String} {make : Run Value} (h : Library.create? name = some make) :
    Frameless make := by
  unfold Library.create? at h
  split at h
  · cases h
    exact fun _ _ => rfl
  · cases h
    exact fun _ _ => rfl
  · cases h
    exact pure _
  · split at h <;> cases h <;> exact pure _
  · cases h

theorem builtin (b : Builtin) (args : List Value) : Frameless (b.invoke args) := by
  cases b with
  | int | fix | abs =>
    simp only [Builtin.invoke]
    split
    · exact pure _
    · exact faultHere _
  | instr | val =>
    simp only [Builtin.invoke]
    split <;> exact pure _
  | createObject =>
    simp only [Builtin.invoke]
    split
    · next make hmake => exact create hmake
    · exact fun _ _ => rfl
  | tab =>
    intro s active
    simp only [Builtin.invoke, Library.tab, Routine.bind_apply, Routine.view_apply]
    show (if Library.integerAt args 0 ≤ s.column then _ else _ : Run Value) _ = _
    split
    · rfl
    · split
      · exact faultHere _ s active
      · rfl
  | _ => exact fun _ _ => rfl

theorem method (m : Method) (receiver : Value) (args : List Value) :
    Frameless (m.invoke receiver args) := by
  cases m with
  | array m =>
    cases receiver with
    | array r => exact arrayMethod m r args
    | _ => exact fun _ _ => rfl
  | assoc m =>
    cases receiver with
    | assoc r => exact assocMethod m r args
    | _ => exact fun _ _ => rfl
  | string m => exact stringMethod m receiver args
  | text | content => exact fun _ _ => rfl

end Run.Frameless

/-! ## Calls of library functions -/

namespace Evaluator

variable (ev : Evaluator) (budget : Nat) {target : Target}

theorem frameless_invoke (h : target.isProcedure = false) (args : List Value) :
    Run.Frameless (ev.invoke budget target args) := by
  cases target with
  | procedure body => cases h
  | builtin b => exact .builtin b args
  | method m receiver => exact .method m receiver args

theorem invoke_related (sim : Simulation fun _ => True) (h : target.isProcedure = false)
    (args : List Value) :
    sim.rel .expression (fun _ => True) (ev.invoke budget target args)
      (ev.invoke budget target args) := by
  have hargs : ∀ v ∈ args, True := fun _ _ => trivial
  cases target with
  | procedure body => cases h
  | builtin b => exact sim.builtin b hargs
  | method m receiver =>
    exact @Walk.method args _ _ sim.toWalk (.method m) m receiver none trivial (fun _ => trivial) hargs

end Evaluator

theorem Run.leaveCall_of_isFinal {signal : Signal} (h : signal.isFinal = true) (returns : Kind) :
    Run.leaveCall returns signal = Routine.leave signal := by
  cases signal with
  | ending | debugExit | error => rfl
  | _ => cases h

/-- Coming back to a frame only looks at the frame. -/
theorem Session.SameFrames.returnedTo_eq {s t : Session} (h : s.SameFrames .expression t)
    (u : Session) : u.returnedTo s none = u.returnedTo t none := by
  have hactive : t.scopes.active = s.scopes.active := h.active
  rw [Session.returnedTo, Session.returnedTo, hactive]

/-- A routine that does not look at its frame can be run in the caller's. Only the debugger sees
that an error came out of another frame. -/
theorem Run.Frameless.handle_inCall {x : Run Value} (h : Run.Frameless x)
    (hframes : (Contract.frames False).Keeps .expression (fun _ => True) x x)
    (hsignals : Contract.signals.Keeps .expression (fun _ => True) x x) (m : AssocRef)
    (returns : Kind) (s : Session) :
    Routine.handle (Run.inCall m none (Routine.handle x Run.crash)) (Run.leaveCall returns) s =
      Routine.handle x (fun signal => Run.inCall m none (Run.crash signal)) s := by
  have hends := (hframes s False.elim).2
  have hleft := (Contract.signals.simulation.crashing hsignals (s.entered m none) trivial).2
  have hmoved : x (s.entered m none) = (x s).mapState (·.inFrame (.fresh m)) := h s (.fresh m)
  rw [Run.handle_inCall_apply, Routine.handle, Routine.handle]
  rw [Routine.handle] at hleft
  rw [hmoved] at hleft ⊢
  cases hx : x s with
  | exhausted => rfl
  | done v t =>
    rw [hx] at hends
    have hsame : s.SameFrames .expression t := hends.2.2
    have hback : (t.inFrame (.fresh m)).returnedTo s none = t := by
      rw [hsame.returnedTo_eq]
      rfl
    exact congrArg (Outcome.done v) hback
  | exit signal t =>
    rw [hx] at hends hleft
    have hsame : s.SameFrames .expression t := hends.2.2
    dsimp only [Outcome.mapState] at hleft ⊢
    rw [Run.inCall, Routine.closing]
    have hcrashed : Run.crash signal (t.inFrame (.fresh m)) =
        (Run.crash signal (t.entered m none) : Outcome Signal Session Value) := rfl
    rw [hcrashed] at hleft ⊢
    cases hcrash : (Run.crash signal (t.entered m none) : Outcome Signal Session Value) with
    | done v u => exact congrArg (Outcome.done v) (hsame.returnedTo_eq u)
    | exhausted => rfl
    | exit signal' u =>
      rw [hcrash] at hleft
      have hfinal : signal'.isFinal = true := hleft.2.2 rfl
      dsimp only
      rw [Run.leaveCall_of_isFinal hfinal, hsame.returnedTo_eq]
      rfl

/-- A call of a library function is the function run in place on the arguments that were given. -/
theorem Evaluator.call_library_eq (ev : Evaluator) (budget : Nat)
    (hc : c.target.isProcedure = false)
    (hchosen : firstSatisfied args 0 c.overloads = some chosen) (context : Option AssocRef)
    (location closing : Location) (s : Session) :
    ev.call budget c args context location closing s =
      Routine.handle (ev.invoke budget c.target chosen.args)
        (fun signal => Run.inCall (context.getD s.scopes.rootM) none (Run.crash signal)) s := by
  have hframe : frameOf? c chosen.signature location = none := by
    rw [← Option.isNone_iff_eq_none, ← Option.not_isSome, isSome_frameOf?, hc, Bool.not_false]
  rw [ev.call_of_satisfied hchosen, Run.calling, hframe, Option.isSome_none, Bool.false_and,
    if_neg Bool.false_ne_true]
  exact (ev.frameless_invoke budget hc chosen.args).handle_inCall
    (ev.invoke_related budget (Contract.frames False).simulation hc chosen.args)
    (ev.invoke_related budget Contract.signals.simulation hc chosen.args) _ _ s

theorem Evaluator.call_of_invoke (ev : Evaluator) (budget : Nat) {s t : Session} {v : Value}
    (hc : c.target.isProcedure = false)
    (hchosen : firstSatisfied args 0 c.overloads = some chosen)
    (h : ev.invoke budget c.target chosen.args s = .done v t) (context : Option AssocRef)
    (location closing : Location) :
    ev.call budget c args context location closing s = .done v t := by
  rw [ev.call_library_eq budget hc hchosen, Routine.handle, h]

/-! ## Completed arguments -/

theorem mem_of_firstSatisfied {index : Nat} {overloads : List Signature}
    (h : firstSatisfied args index overloads = some chosen) :
    chosen.signature ∈ overloads ∧ chosen.signature.satisfy? args = some chosen.args := by
  induction overloads generalizing index with
  | nil => cases h
  | cons s rest ih =>
    rw [firstSatisfied] at h
    split at h
    · next coerced hs =>
      cases h
      exact ⟨List.mem_cons_self, hs⟩
    · obtain ⟨hmem, hs⟩ := ih h
      exact ⟨List.mem_cons_of_mem _ hmem, hs⟩

namespace Signature

theorem complete_eq_self {s : Signature} (h : s.arguments.length ≤ args.length) :
    s.complete args = args := by
  rw [complete, List.drop_eq_nil_of_le h, List.filterMap_nil, List.append_nil]

/-- Nothing is missing from completed arguments when all that can be left out have constants. -/
theorem length_le_complete {s : Signature}
    (hconstant : ∀ a ∈ s.arguments.drop s.requiredCount, a.constant?.isSome)
    (hcount : s.requiredCount ≤ args.length) :
    s.arguments.length ≤ (s.complete args).length := by
  have hrest : ∀ a ∈ s.arguments.drop args.length, a.constant?.isSome :=
    fun a ha => hconstant a (List.drop_subset_drop_left _ hcount ha)
  have hfilled : ((s.arguments.drop args.length).filterMap Argument.constant?).length =
      (s.arguments.drop args.length).length := List.filterMap_length_eq_length.2 hrest
  rw [complete, List.length_append, hfilled, List.length_drop]
  omega

end Signature

namespace Builtin

theorem constant_defaults (b : Builtin) :
    ∀ a ∈ b.signature.arguments.drop b.signature.requiredCount, a.constant?.isSome := by
  cases b <;> decide

/-- The functions that can be called without all of their arguments. -/
theorem required_or_optional (b : Builtin) :
    b.signature.arguments.length = b.signature.requiredCount ∨
      b = strI ∨ b = mid ∨ b = val ∨ b = typeName := by
  cases b <;> decide

theorem invoke_complete {b : Builtin}
    (hcount : b.signature.requiredCount ≤ args.length) (hradix : ¬ (b = strI ∧ args.length = 1)) :
    b.invoke (b.signature.complete args) = b.invoke args := by
  by_cases hall : b.signature.arguments.length ≤ args.length
  · rw [Signature.complete_eq_self hall]
  obtain hrequired | rfl | rfl | rfl | rfl := b.required_or_optional
  · omega
  · have hlower : 1 ≤ args.length := hcount
    have hupper : ¬ 2 ≤ args.length := hall
    exact absurd ⟨rfl, by omega⟩ hradix
  · have hlower : 2 ≤ args.length := hcount
    have hupper : ¬ 3 ≤ args.length := hall
    obtain _ | ⟨text, _ | ⟨start, _ | ⟨count, rest⟩⟩⟩ := args
    · cases hlower
    · exact absurd hlower (Nat.not_succ_le_self 1)
    · rfl
    · exact absurd (Nat.le_add_left 3 rest.length) hupper
  all_goals
    have hlower : 1 ≤ args.length := hcount
    have hupper : ¬ 2 ≤ args.length := hall
    obtain ⟨v, rfl⟩ := List.length_eq_one_iff.1 (show args.length = 1 by omega)
    rfl

end Builtin

namespace Method

theorem constant_defaults (m : Method) :
    ∀ s ∈ m.overloads, ∀ a ∈ s.arguments.drop s.requiredCount, a.constant?.isSome := by
  cases m with
  | array m | assoc m | string m => cases m <;> decide
  | text w | content w => cases w <;> decide

theorem required_or_split (m : Method) :
    ∀ s ∈ m.overloads, s.arguments.length = s.requiredCount ∨ m = .string .split := by
  cases m with
  | array m | assoc m | string m => cases m <;> decide
  | text w | content w => cases w <;> decide

theorem invoke_complete {m : Method} {s : Signature} (hs : s ∈ m.overloads)
    (hcount : s.requiredCount ≤ args.length) (receiver : Value) :
    m.invoke receiver (s.complete args) = m.invoke receiver args := by
  by_cases hall : s.arguments.length ≤ args.length
  · rw [Signature.complete_eq_self hall]
  obtain hrequired | rfl := m.required_or_split s hs
  · omega
  · obtain rfl := List.mem_singleton.1 hs
    have hupper : ¬ 1 ≤ args.length := hall
    obtain rfl := List.length_eq_zero_iff.1 (show args.length = 0 by omega)
    rfl

end Method

namespace Evaluator

variable (ev : Evaluator) (budget : Nat)

theorem length_le_complete_of_library (hc : c.target.isProcedure = false)
    (hchosen : firstSatisfied args 0 c.overloads = some chosen) :
    chosen.signature.requiredCount ≤ chosen.args.length ∧
      chosen.signature.arguments.length ≤ (chosen.signature.complete chosen.args).length := by
  obtain ⟨hmem, hsatisfied⟩ := mem_of_firstSatisfied hchosen
  obtain ⟨hcount, -, hargs⟩ := Signature.of_satisfy? hsatisfied
  have hlength : chosen.args.length = args.length := by
    rw [hargs, Signature.length_coerceAll]
  rw [← hlength] at hcount
  refine ⟨hcount, Signature.length_le_complete ?_ hcount⟩
  rw [Callable.overloads] at hmem
  cases htarget : c.target with
  | procedure body => rw [htarget] at hc; cases hc
  | builtin b =>
    rw [htarget] at hmem
    rw [List.mem_singleton.1 hmem]
    exact b.constant_defaults
  | method m receiver =>
    rw [htarget] at hmem
    exact m.constant_defaults _ hmem

theorem invoke_complete (hc : c.target.isProcedure = false)
    (hchosen : firstSatisfied args 0 c.overloads = some chosen)
    (hradix : ¬ (c.target = .builtin .strI ∧ chosen.args.length = 1)) :
    ev.invoke budget c.target (chosen.signature.complete chosen.args) =
      ev.invoke budget c.target chosen.args := by
  have hcount := (length_le_complete_of_library hc hchosen).1
  obtain ⟨hmem, -⟩ := mem_of_firstSatisfied hchosen
  rw [Callable.overloads] at hmem
  cases htarget : c.target with
  | procedure body => rw [htarget] at hc; cases hc
  | builtin b =>
    rw [htarget] at hmem hradix
    rw [List.mem_singleton.1 hmem] at hcount ⊢
    exact Builtin.invoke_complete hcount fun ⟨hb, hone⟩ => hradix ⟨congrArg _ hb, hone⟩
  | method m receiver =>
    rw [htarget] at hmem
    exact Method.invoke_complete hmem hcount receiver

end Evaluator

/-- An integer that `StrI` is given is the one it writes. -/
theorem Library.ofInt_integerAt (n : Int32) (rest : List Value) :
    Int32.ofInt (integerAt (.integer n :: rest) 0) = n := by
  show Int32.ofInt n.toInt64.toInt = n
  rw [Int32.toInt_toInt64, Int32.ofInt_toInt]

theorem Builtin.integer_of_strI
    (hchosen : firstSatisfied args 0 (Target.builtin .strI).overloads = some chosen)
    (hone : chosen.args.length = 1) : ∃ n, chosen.args = [.integer n] := by
  obtain ⟨hmem, hsatisfied⟩ := mem_of_firstSatisfied hchosen
  obtain ⟨-, hright, hargs⟩ := Signature.of_satisfy? hsatisfied
  obtain ⟨v, hv⟩ := List.length_eq_one_iff.1 hone
  have hlength : args.length = 1 := by
    rw [← Signature.length_coerceAll chosen.signature.arguments args, ← hargs, hone]
  obtain ⟨a, rfl⟩ := List.length_eq_one_iff.1 hlength
  have hfirst : chosen.signature.arguments[0]? = some (.required "value" .integer) := by
    rw [List.mem_singleton.1 hmem]
    rfl
  obtain ⟨w, hcoerced, hw⟩ := Signature.coerceAll_getElem? hright hfirst rfl
  rw [← hargs, hv] at hw
  cases hw
  have hkind : v.kind = .integer :=
    Value.kind_of_coerce? hcoerced (fun h => (by cases h)) (fun h => (by cases h))
  cases v with
  | integer n => exact ⟨n, hv⟩
  | _ => cases hkind

/-- A call of a library function that was not given all its arguments does what the function does
with the declared defaults in their places, and what the function does is the whole effect of the
call. The exception is `StrI` without a base: it gives an empty text, though with the declared base
it would have written the number. -/
theorem library_defaults (ev : Evaluator) (budget : Nat) {c : Callable} {args : List Value}
    {chosen : Satisfied} (hc : c.target.isProcedure = false)
    (hchosen : firstSatisfied args 0 c.overloads = some chosen) (context : Option AssocRef)
    (location closing : Location) (s : Session) :
    chosen.signature.arguments.length ≤ (chosen.signature.complete chosen.args).length ∧
      (¬ (c.target = .builtin .strI ∧ chosen.args.length = 1) →
        ev.call budget c args context location closing s =
          Routine.handle
            (ev.invoke budget c.target (chosen.signature.complete chosen.args))
            (fun signal => Run.inCall (context.getD s.scopes.rootM) none (Run.crash signal)) s) ∧
      (c.target = .builtin .strI → chosen.args.length = 1 →
        ∃ n, chosen.args = [.integer n] ∧
          ev.call budget c args context location closing s = .done (.string "") s ∧
          ev.invoke budget c.target (chosen.signature.complete chosen.args) s =
            .done (.string ((if 0 ≤ n then " " else "") ++ toString n.toInt)) s) := by
  have hcall := ev.call_library_eq budget hc hchosen context location closing s
  refine ⟨(Evaluator.length_le_complete_of_library hc hchosen).2, fun hradix => ?_,
    fun htarget hone => ?_⟩
  · rw [ev.invoke_complete budget hc hchosen hradix]
    exact hcall
  · have hmem := (mem_of_firstSatisfied hchosen).1
    rw [Callable.overloads, htarget] at hmem hchosen
    obtain ⟨n, hn⟩ := Builtin.integer_of_strI hchosen hone
    have hcompleted : chosen.signature.complete chosen.args = [.integer n, .integer 10] := by
      rw [List.mem_singleton.1 hmem, hn]
      rfl
    refine ⟨n, hn, ?_, ?_⟩
    · rw [hcall, htarget, hn]
      rfl
    · rw [htarget, hcompleted]
      show Outcome.done (Value.string (Library.radixText _ 10)) s = _
      rw [Library.ofInt_integerAt, Library.radixText, if_pos rfl]

/-- Without a base `StrI` does not write the number it is given. With the declared one it does. -/
theorem strI_without_base :
    (Evaluator.ofBudget 1).call 1 (.ofBuiltin .strI) [.integer 5] none .builtin .builtin
        (.new .standard) = .done (.string "") (.new .standard) ∧
      (Evaluator.ofBudget 1).call 1 (.ofBuiltin .strI) [.integer 5, .integer 10] none .builtin
        .builtin (.new .standard) = .done (.string " 5") (.new .standard) := by
  have hone : firstSatisfied [.integer 5] 0 (Callable.ofBuiltin .strI).overloads =
      some ⟨0, Builtin.strI.signature, [.integer 5]⟩ := rfl
  have htwo : firstSatisfied [.integer 5, .integer 10] 0 (Callable.ofBuiltin .strI).overloads =
      some ⟨0, Builtin.strI.signature, [.integer 5, .integer 10]⟩ := rfl
  exact ⟨Evaluator.call_library_eq _ 1 rfl hone none .builtin .builtin _,
    Evaluator.call_library_eq _ 1 rfl htwo none .builtin .builtin _⟩

theorem library_defaults_of_split :
    (Evaluator.ofBudget 1).call 1 (.ofMethod (.string .split) (.string "abc")) [] none .builtin
        .builtin (.new .standard) =
      Routine.handle (Method.invoke (.string .split) (.string "abc") [.string ""])
        (fun signal => Run.inCall (Session.new .standard).scopes.rootM none (Run.crash signal))
        (.new .standard) := by
  have hchosen :
      firstSatisfied [] 0 (Callable.ofMethod (.string .split) (.string "abc")).overloads =
        some ⟨0, .of [.optional "separator" .string (.string "")] .object, []⟩ := rfl
  exact (library_defaults (.ofBudget 1) 1 rfl hchosen none .builtin .builtin (.new .standard)).2.1
    fun h => (by cases h.1)

end BrightScript
