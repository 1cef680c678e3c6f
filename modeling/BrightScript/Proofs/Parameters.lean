import BrightScript.Proofs.Frames

/-!
# What parameters are bound to

A parameter is bound to the argument at its position, turned into its kind. Parameters behind the
last argument are left out: such a parameter is bound to the value of its default, which is turned
into its kind if that is possible and stays as it is otherwise. The number of arguments is checked
against the number of parameters without a default, wherever these stand. So a parameter without a
default can be left out when it stands behind one with a default, and is then bound to `invalid`.

`parameters_bound` says what every parameter is bound to, and when all of them are as declared.
-/

namespace BrightScript

variable {v w : Value} {args : List Value} {s t : Session} {kind : Kind} {p : Parameter} {i : Nat}

namespace Value

/-- Whether a value is as a parameter of a kind demands: the rule of parameters gives it back. -/
def Conforms (v : Value) (kind : Kind) : Prop :=
  v.coerce? kind = some v

theorem conforms_of_kind_eq (h : v.kind = kind) : v.Conforms kind := by
  unfold Conforms coerce?
  rw [if_pos (.inl h)]

theorem kind_of_convert? (h : v.convert? kind = some w) : w.kind = kind := by
  unfold convert? at h
  split at h
  case h_13 =>
    split at h
    · cases h
      assumption
    · cases h
  all_goals
    cases h
    rfl

theorem conforms_of_coerce? {v w : Value} (h : v.coerce? kind = some w) : w.Conforms kind := by
  have hv := h
  unfold coerce? at h
  split at h
  · cases h
    exact hv
  split at h
  · obtain ⟨-, h⟩ := Option.ite_none_right_eq_some.1 h
    cases h
    exact conforms_of_kind_eq rfl
  · obtain ⟨-, h⟩ := Option.ite_none_right_eq_some.1 h
    cases h
    exact hv
  split at h
  · exact conforms_of_coerce? h
  · exact conforms_of_kind_eq (kind_of_convert? (Option.ite_none_right_eq_some.1 h).2)

/-- Only two kinds let values of other kinds through. -/
theorem kind_of_coerce? {v w : Value} (h : v.coerce? kind = some w) (hdynamic : kind ≠ .dynamic)
    (hinterface : kind ≠ .interface) : w.kind = kind := by
  unfold coerce? at h
  split at h
  · next hsame =>
    cases h
    exact hsame.resolve_right hdynamic
  split at h
  · obtain ⟨-, h⟩ := Option.ite_none_right_eq_some.1 h
    cases h
    rfl
  · exact absurd rfl hinterface
  split at h
  · exact kind_of_coerce? h hdynamic hinterface
  · exact kind_of_convert? (Option.ite_none_right_eq_some.1 h).2

theorem coerce?_dynamic (v : Value) : v.coerce? .dynamic = some v := by
  unfold coerce?
  rw [if_pos (.inr rfl)]

theorem coerce?_interface (v : Value) :
    v.coerce? .interface = if v.isObject then some v else none := by
  have hkind : ¬ (v.kind = .interface ∨ Kind.interface = .dynamic) := by
    cases v <;> simp [kind]
  rw [coerce?, if_neg hkind]

end Value

/-! ## Supplied arguments -/

namespace Signature

theorem coerceAll_getElem? {parameters : List Argument} (h : (coerceAll parameters args).1 = [])
    {p : Argument} {a : Value} (hp : parameters[i]? = some p) (ha : args[i]? = some a) :
    ∃ v, a.coerce? p.kind = some v ∧ (coerceAll parameters args).2[i]? = some v := by
  induction parameters generalizing args i with
  | nil => cases hp
  | cons q rest ih =>
    cases args with
    | nil => cases ha
    | cons b more =>
      rw [coerceAll] at h ⊢
      cases hb : b.coerce? q.kind with
      | none => rw [hb] at h; cases h
      | some w =>
        rw [hb] at h
        cases i with
        | zero =>
          cases hp
          cases ha
          exact ⟨w, hb, rfl⟩
        | succ i => exact ih h hp ha

theorem length_coerceAll (parameters : List Argument) (args : List Value) :
    (coerceAll parameters args).2.length = args.length := by
  induction parameters generalizing args with
  | nil => cases args <;> rfl
  | cons q rest ih =>
    cases args with
    | nil => rfl
    | cons b more =>
      rw [coerceAll]
      cases b.coerce? q.kind <;> simp [ih]

theorem of_satisfy? {signature : Signature} {coerced : List Value}
    (h : signature.satisfy? args = some coerced) :
    signature.requiredCount ≤ args.length ∧ (coerceAll signature.arguments args).1 = [] ∧
      coerced = (coerceAll signature.arguments args).2 := by
  unfold satisfy? at h
  split at h
  · next hnone =>
    rw [List.isEmpty_iff, mismatches, List.append_eq_nil_iff] at hnone
    refine ⟨Nat.le_of_not_lt fun hfew => ?_, hnone.2, (Option.some.inj h).symm⟩
    rw [countMismatch, if_pos hfew] at hnone
    cases hnone.1
  · cases h

theorem default_of_requiredCount_le {signature : Signature} {count : Nat}
    (h : signature.requiredCount ≤ count)
    (hordered : signature.arguments.Pairwise fun p q => q.default? = none → p.default? = none)
    {p : Argument} (hp : signature.arguments[i]? = some p) (hi : count ≤ i) :
    p.default? ≠ none := by
  intro hnone
  have hlt : i < signature.arguments.length := (List.getElem?_eq_some_iff.1 hp).1
  -- All parameters up to this one are then without a default, and there are too many of them.
  have hbefore : ∀ q ∈ signature.arguments.take (i + 1), q.default?.isNone = true := by
    intro q hq
    obtain ⟨j, hj, rfl⟩ := List.mem_take_iff_getElem.1 hq
    obtain ⟨hi', rfl⟩ := List.getElem?_eq_some_iff.1 hp
    rcases Nat.lt_or_eq_of_le (show j ≤ i by omega) with hji | rfl
    · exact Option.isNone_iff_eq_none.2 (List.pairwise_iff_getElem.1 hordered j i _ hi' hji hnone)
    · exact Option.isNone_iff_eq_none.2 hnone
  have hcount : (signature.arguments.take (i + 1)).length ≤ signature.requiredCount := by
    rw [← List.filter_eq_self.2 hbefore]
    exact ((List.take_sublist _ _).filter _).length_le
  rw [List.length_take] at hcount
  omega

end Signature

/-! ## Binding one after the other -/

def Parameter.key (p : Parameter) : String :=
  Text.fold p.name.name

def Session.locals (s : Session) : Bindings :=
  s.scopes.active.locals

theorem Run.locals_of_bindLocal {name : Identifier} (h : Run.bindLocal name v s = .done () t) :
    t.locals = s.locals.insert (Text.fold name.name) v := by
  unfold Run.bindLocal at h
  split at h
  · cases h
  · cases h
    rfl

namespace Evaluator

variable {n : Nat}

theorem locals_of_defaultValue (h : (ofBudget n).defaultValue p s = .done v t) :
    t.locals = s.locals := by
  have hends := ((Contract.frames False).simulation.defaultValue
    ((Contract.frames False).simulation.ofBudget n) p s False.elim).2
  rw [h] at hends
  have hactive : t.scopes.active = s.scopes.active := hends.2.2.active
  exact congrArg Activation.locals hactive

theorem defaultValue_eq_done (h : (ofBudget n).defaultValue p s = .done v t) :
    match p.default? with
    | none => v = .invalid
    | some e => ∃ w, BrightScript.evaluate n e s = .done w t ∧ v = (w.coerce? p.kind).getD w := by
  unfold defaultValue at h
  cases hd : p.default? with
  | none => rw [hd] at h; cases h; rfl
  | some e =>
    rw [hd] at h
    obtain ⟨w, u, hw, hv⟩ := Routine.bind_eq_done.1 h
    cases hv
    exact ⟨w, hw, rfl⟩

-- Any further parameters can be bound from the session behind the first one, not only `rest`: what
-- is bound before a parameter is needed to say where its default is evaluated.
theorem bindParameters_cons {rest : List Parameter}
    (h : (ofBudget n).bindParameters (p :: rest) args s = .done () t) :
    ∃ v u, u.locals = s.locals.insert p.key v ∧
      (ofBudget n).bindParameters rest args.tail u = .done () t ∧
      (∀ before after, (ofBudget n).bindParameters before args.tail u = .done () after →
        (ofBudget n).bindParameters (p :: before) args s = .done () after) ∧
      match args with
      | [] => ∃ s', (ofBudget n).defaultValue p s = .done v s'
      | a :: _ => v = a := by
  cases args with
  | nil =>
    obtain ⟨v, s', hv, h⟩ := Routine.bind_eq_done.1 h
    obtain ⟨⟨⟩, u, hu, h⟩ := Routine.bind_eq_done.1 h
    refine ⟨v, u, ?_, h, fun before after hbefore => ?_, s', hv⟩
    · rw [Run.locals_of_bindLocal hu, locals_of_defaultValue hv]
      rfl
    · exact Routine.bind_eq_done.2 ⟨v, s', hv, Routine.bind_eq_done.2 ⟨(), u, hu, hbefore⟩⟩
  | cons a more =>
    obtain ⟨⟨⟩, u, hu, h⟩ := Routine.bind_eq_done.1 h
    refine ⟨a, u, Run.locals_of_bindLocal hu, h, fun before after hbefore => ?_, rfl⟩
    exact Routine.bind_eq_done.2 ⟨(), u, hu, hbefore⟩

theorem locals_of_bindParameters {parameters : List Parameter}
    (h : (ofBudget n).bindParameters parameters args s = .done () t) {key : String}
    (hkey : key ∉ parameters.map Parameter.key) : t.locals[key]? = s.locals[key]? := by
  induction parameters generalizing args s with
  | nil => cases h; rfl
  | cons p rest ih =>
    rw [List.map_cons, List.mem_cons, not_or] at hkey
    obtain ⟨v, u, hu, hrest, -⟩ := bindParameters_cons h
    rw [ih hrest hkey.2, hu, Std.ExtTreeMap.getElem?_insert, if_neg]
    exact fun heq => hkey.1 (Std.LawfulEqCmp.eq_of_compare heq).symm

theorem bound_of_bindParameters {parameters : List Parameter}
    (h : (ofBudget n).bindParameters parameters args s = .done () t) (hp : parameters[i]? = some p)
    (hlast : p.key ∉ (parameters.drop (i + 1)).map Parameter.key) :
    ∃ v, t.locals[p.key]? = some v ∧
      match args[i]? with
      | some a => v = a
      | none => ∃ u u', (ofBudget n).bindParameters (parameters.take i) args s = .done () u ∧
          (ofBudget n).defaultValue p u = .done v u' := by
  induction parameters generalizing args s i with
  | nil => cases hp
  | cons q rest ih =>
    obtain ⟨v, u, hu, hrest, hgrow, hv⟩ := bindParameters_cons h
    cases i with
    | zero =>
      cases hp
      refine ⟨v, ?_, ?_⟩
      · rw [locals_of_bindParameters hrest hlast, hu, Std.ExtTreeMap.getElem?_insert_self]
      · cases args with
        | nil =>
          obtain ⟨u', hv⟩ := hv
          exact ⟨s, u', rfl, hv⟩
        | cons a more => exact hv
    | succ i =>
      obtain ⟨w, hw, hsource⟩ := ih hrest hp hlast
      refine ⟨w, hw, ?_⟩
      rw [List.getElem?_tail] at hsource
      cases ha : args[i + 1]? with
      | some a =>
        rw [ha] at hsource
        exact hsource
      | none =>
        rw [ha] at hsource
        obtain ⟨before, after, hbefore, hdefault⟩ := hsource
        exact ⟨before, after, hgrow _ _ hbefore, hdefault⟩

end Evaluator

/-! ## What holds when the body starts -/

/-- Whether the parameters without a default stand before all others. -/
def Procedure.RequiredFirst (body : Procedure) : Prop :=
  body.parameters.Pairwise fun p q => q.default? = none → p.default? = none

theorem Procedure.RequiredFirst.signature {body : Procedure} (h : body.RequiredFirst) :
    body.signature.arguments.Pairwise fun p q => q.default? = none → p.default? = none :=
  List.pairwise_map.2 h

theorem Procedure.of_firstSatisfied {body : Procedure} {chosen : Satisfied}
    (h : firstSatisfied args 0 (Target.procedure body).overloads = some chosen) :
    body.signature.satisfy? args = some chosen.args := by
  rw [Target.overloads, firstSatisfied] at h
  split at h
  · next coerced hcoerced =>
    cases h
    exact hcoerced
  · cases h

theorem Value.conforms_getD_iff :
    ((w.coerce? kind).getD w).Conforms kind ↔ (w.coerce? kind).isSome := by
  cases h : w.coerce? kind with
  | none =>
    simp only [Option.getD_none, Option.isSome_none, Bool.false_eq_true, iff_false]
    intro hw
    rw [Conforms, h] at hw
    cases hw
  | some v => simp [conforms_of_coerce? h]

/-- Whenever the arguments of a call satisfy the signature of a procedure and all its parameters are
bound, every parameter that none behind it hides has a value. If an argument stands at its position,
that is the argument in its kind. If none does, it is the value its default has once the parameters
before it are bound, in its kind if that is possible and as it is otherwise; only in the first case
it conforms. Without a default it is `invalid`, which needs a parameter with a default before one
without. -/
theorem parameters_bound (n : Nat) (body : Procedure) (args : List Value) (chosen : Satisfied)
    (s t : Session)
    (hchosen : firstSatisfied args 0 (Target.procedure body).overloads = some chosen)
    (hbound : (Evaluator.ofBudget n).bindParameters body.parameters chosen.args s = .done () t)
    (i : Nat) (p : Parameter) (hp : body.parameters[i]? = some p)
    (hlast : p.key ∉ (body.parameters.drop (i + 1)).map Parameter.key) :
    ∃ v, t.locals[p.key]? = some v ∧
      (∀ a, args[i]? = some a → a.coerce? p.kind = some v ∧ v.Conforms p.kind) ∧
      (args[i]? = none → ∀ e, p.default? = some e → ∃ u w u',
        (Evaluator.ofBudget n).bindParameters (body.parameters.take i) chosen.args s =
          .done () u ∧
        evaluate n e u = .done w u' ∧ v = (w.coerce? p.kind).getD w ∧
        (v.Conforms p.kind ↔ (w.coerce? p.kind).isSome)) ∧
      (args[i]? = none → p.default? = none → v = .invalid ∧ ¬ body.RequiredFirst) := by
  obtain ⟨hcount, hright, hargs⟩ := Signature.of_satisfy? (Procedure.of_firstSatisfied hchosen)
  have hargument : body.signature.arguments[i]? = some p.argument := by
    simp [Procedure.signature, Signature.of, hp]
  obtain ⟨v, hv, hsource⟩ := Evaluator.bound_of_bindParameters hbound hp hlast
  refine ⟨v, hv, ?_, ?_, ?_⟩
  · intro a ha
    obtain ⟨w, hcoerced, hw⟩ := Signature.coerceAll_getElem? hright hargument ha
    rw [hargs, hw] at hsource
    cases hsource
    exact ⟨hcoerced, Value.conforms_of_coerce? hcoerced⟩
  all_goals
    intro ha
    have hnone : chosen.args[i]? = none := by
      rw [List.getElem?_eq_none_iff] at ha ⊢
      rw [hargs, Signature.length_coerceAll]
      exact ha
    rw [hnone] at hsource
    obtain ⟨u, u', hbefore, hdefault⟩ := hsource
    have hvalue := Evaluator.defaultValue_eq_done hdefault
  · intro e he
    rw [he] at hvalue
    obtain ⟨w, hw, rfl⟩ := hvalue
    exact ⟨u, w, u', hbefore, hw, rfl, Value.conforms_getD_iff⟩
  · intro he
    rw [he] at hvalue
    refine ⟨hvalue, fun hordered => ?_⟩
    exact Signature.default_of_requiredCount_le hcount hordered.signature hargument
      (List.getElem?_eq_none_iff.1 ha) he

/-- `function f(a = 1, b as integer)`, whose second parameter can be left out. -/
def defaultFirst : Procedure :=
  ⟨"f", [⟨⟨"a", .builtin⟩, .dynamic, some (.literal (.integer 1) .builtin)⟩,
    ⟨⟨"b", .builtin⟩, .integer, none⟩], .void, true, ⟨[], .builtin⟩, .builtin⟩

/-- `function g(a = "x" as integer)`, whose default is not of the declared kind. -/
def textDefault : Procedure :=
  ⟨"g", [⟨⟨"a", .builtin⟩, .integer, some (.literal (.string "x") .builtin)⟩], .void, true,
    ⟨[], .builtin⟩, .builtin⟩

/-- A parameter without a default is not always bound to an argument, and what parameters are bound
to does not always conform. -/
theorem parameters_not_as_declared :
    (∃ chosen t, firstSatisfied [.integer 5] 0 (Target.procedure defaultFirst).overloads =
        some chosen ∧
      (Evaluator.ofBudget 2).bindParameters defaultFirst.parameters chosen.args
        (.new .standard) = .done () t ∧
      t.locals[Text.fold "b"]? = some .invalid ∧ ¬ Value.invalid.Conforms .integer) ∧
    (∃ chosen t, firstSatisfied [] 0 (Target.procedure textDefault).overloads = some chosen ∧
      (Evaluator.ofBudget 2).bindParameters textDefault.parameters chosen.args
        (.new .standard) = .done () t ∧
      t.locals[Text.fold "a"]? = some (.string "x") ∧
      ¬ (Value.string "x").Conforms .integer) := by
  refine ⟨⟨_, _, rfl, rfl, ?_, ?_⟩, ⟨_, _, rfl, rfl, ?_, ?_⟩⟩
  · exact Std.ExtTreeMap.getElem?_insert_self
  · exact nofun
  · exact Std.ExtTreeMap.getElem?_insert_self
  · exact nofun

/-- `function h(a as integer, b = 2 as float)`. -/
def defaultLast : Procedure :=
  ⟨"h", [⟨⟨"a", .builtin⟩, .integer, none⟩,
    ⟨⟨"b", .builtin⟩, .float, some (.literal (.integer 2) .builtin)⟩], .void, true,
    ⟨[], .builtin⟩, .builtin⟩

theorem parameters_bound_of_defaultLast :
    ∃ t, (Evaluator.ofBudget 2).bindParameters defaultLast.parameters [.integer 5]
        (.new .standard) = .done () t ∧
      (∃ v, t.locals[Text.fold "a"]? = some v ∧ v.Conforms .integer) ∧
      ∃ v, t.locals[Text.fold "b"]? = some v ∧ v.Conforms .float := by
  refine ⟨_, rfl, ?_, ?_⟩
  · obtain ⟨v, hv, hargument, -⟩ := parameters_bound 2 defaultLast [.longInteger 5]
      ⟨0, defaultLast.signature, [.integer 5]⟩ (.new .standard) _ rfl rfl 0 _ rfl (by decide)
    exact ⟨v, hv, (hargument _ rfl).2⟩
  · obtain ⟨v, hv, -, hdefault, -⟩ := parameters_bound 2 defaultLast [.longInteger 5]
      ⟨0, defaultLast.signature, [.integer 5]⟩ (.new .standard) _ rfl rfl 1 _ rfl (by decide)
    obtain ⟨u, w, u', hu, hw, -, hconforms⟩ := hdefault rfl _ rfl
    cases hw
    exact ⟨v, hv, hconforms.2 rfl⟩

end BrightScript
