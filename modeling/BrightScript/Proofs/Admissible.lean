import BrightScript.Evaluate.Program

/-!
# Predicates that every computed value inherits

A predicate on values is admissible if it holds of all values without parts, of every procedure and
builtin, and passes between a box and its content and between a method and the object it was found
on. Whatever the language computes from values that satisfy an admissible predicate satisfies it
too: numbers and texts are plain, and coercions only box, unbox and convert.

Two predicates are used later: the one that holds of every value, and the one that says that methods
are bound to objects of their own component.
-/

namespace BrightScript

variable {v w : Value}

/-- Whether a value has no values inside: it is neither a box nor a function. -/
def Value.isPlain : Value → Bool
  | .function _ | .boxed _ => false
  | _ => true

/-- A predicate that holds of plain values and procedures, and of boxes and methods whenever it
holds of what is inside. -/
structure Admissible (P : Value → Prop) : Prop where
  plain : ∀ {v : Value}, v.isPlain = true → P v
  procedure : ∀ {i : Identity} {body : Procedure} {context : Option AssocRef},
    P (.function ⟨i, .procedure body, context⟩)
  builtin : ∀ {i : Identity} {b : Builtin} {context : Option AssocRef},
    P (.function ⟨i, .builtin b, context⟩)
  method : ∀ {i : Identity} {m : Method} {receiver : Value} {context : Option AssocRef},
    receiver.component? = some m.component → P receiver →
      P (.function ⟨i, .method m receiver, context⟩)
  receiver : ∀ {i : Identity} {m : Method} {receiver : Value} {context : Option AssocRef},
    P (.function ⟨i, .method m receiver, context⟩) → P receiver
  context : ∀ {i : Identity} {target : Target} {context context' : Option AssocRef},
    P (.function ⟨i, target, context⟩) → P (.function ⟨i, target, context'⟩)
  boxed : ∀ {v : Value}, v.isBoxable = true → P v → P (.boxed v)
  content : ∀ {v : Value}, P (.boxed v) → P v

/-- Everything is admissible when nothing is asked. -/
theorem Admissible.trivial : Admissible fun _ => True :=
  ⟨fun _ => True.intro, True.intro, True.intro, fun _ _ => True.intro, fun _ => True.intro,
    fun _ => True.intro, fun _ _ => True.intro, fun _ => True.intro⟩

namespace Number

theorem isPlain_widest {onInt32 : Int32 → Int32 → Int32} {onInt64 : Int64 → Int64 → Int64}
    {onFloat : Float → Float → Float} (a b : Number) :
    (widest onInt32 onInt64 onFloat a b).isPlain = true := by
  cases a <;> cases b <;> rfl

theorem isPlain_bitwise {onInt32 : Int32 → Int32 → Int32} {onInt64 : Int64 → Int64 → Int64}
    (a b : Number) : (bitwise onInt32 onInt64 a b).isPlain = true := by
  cases a <;> cases b <;> rfl

theorem isPlain_apply {op : BinaryOp} {a b : Number} (h : a.apply op b = .ok v) :
    v.isPlain = true := by
  cases op <;> simp only [apply, reduceCtorEq, Except.ok.injEq] at h
  case intDivide =>
    unfold intDiv at h
    split at h
    · cases h
    · cases h
      cases a <;> cases b <;> rfl
  case modulo =>
    unfold mod at h
    split at h
    · cases h
    · cases h
      exact isPlain_widest a b
  case add | subtract | multiply => subst h; exact isPlain_widest a b
  case and | or => subst h; exact isPlain_bitwise a b
  all_goals
    subst h
    cases a <;> cases b <;> rfl

end Number

namespace Value

theorem isPlain_ofLiteral (l : Literal) : (ofLiteral l).isPlain = true := by
  cases l <;> rfl

theorem isPlain_arithmetic {op : BinaryOp} {a b : Value} (h : a.arithmetic op b = .ok v) :
    v.isPlain = true := by
  unfold arithmetic at h
  split at h
  · exact Number.isPlain_apply h
  · cases h

theorem isPlain_complement? (h : v.complement? = some w) : w.isPlain = true := by
  obtain ⟨n, -, rfl⟩ := Option.map_eq_some_iff.1 h
  cases n <;> rfl

theorem isPlain_magnitude? (h : Library.magnitude? v = some w) : w.isPlain = true := by
  cases v <;> simp only [Library.magnitude?, reduceCtorEq, Option.some.injEq] at h <;>
    subst h <;> rfl

end Value

namespace Admissible

variable {P : Value → Prop} (hP : Admissible P)
include hP

theorem unbox (h : P v) : P v.unbox := by
  cases v with
  | boxed content => exact hP.content h
  | _ => exact h

theorem box (h : P v) : P v.box := by
  unfold Value.box
  split
  · next hv => exact hP.boxed hv h
  · exact h

theorem convert? {kind : Kind} (h : P v) (hw : v.convert? kind = some w) : P w := by
  unfold Value.convert? at hw
  split at hw
  case h_13 =>
    split at hw
    · cases hw; exact h
    · cases hw
  all_goals
    cases hw
    exact hP.plain rfl

/-- The rule of parameters and results keeps an admissible predicate. -/
theorem coerce? {v w : Value} {target : Kind} (h : P v) (hw : v.coerce? target = some w) :
    P w := by
  -- only a box takes the rule to another value, its content
  unfold Value.coerce? at hw
  split at hw
  · cases hw; exact h
  split at hw
  · obtain ⟨hv, hw⟩ := Option.ite_none_right_eq_some.1 hw
    cases hw
    exact hP.boxed hv h
  · cases (Option.ite_none_right_eq_some.1 hw).2
    exact h
  split at hw
  · exact coerce? (hP.content h) hw
  · exact hP.convert? h (Option.ite_none_right_eq_some.1 hw).2

/-- The rule of variables with a kind letter keeps an admissible predicate. -/
theorem coerceForDesignator? {target : Kind} (h : P v)
    (hw : v.coerceForDesignator? target = some w) : P w := by
  unfold Value.coerceForDesignator? at hw
  split at hw
  · cases hw; exact h
  · split at hw
    · cases hw; exact hP.unbox h
    · split at hw
      · cases hw; exact hP.plain rfl
      · cases hw; exact hP.plain rfl
      · cases hw

/-- Arguments turned into the kinds of parameters keep an admissible predicate. -/
theorem coerceAll {parameters : List Argument} {args : List Value} (h : ∀ v ∈ args, P v) :
    ∀ v ∈ (Signature.coerceAll parameters args).2, P v := by
  induction args generalizing parameters with
  | nil =>
    have e : Signature.coerceAll parameters [] = ([], []) := by
      cases parameters <;> rfl
    rw [e]
    exact h
  | cons v vs ih =>
    cases parameters with
    | nil => exact h
    | cons p ps =>
      have hv : P v := h v List.mem_cons_self
      have hvs : ∀ w ∈ (Signature.coerceAll ps vs).2, P w :=
        ih fun w hw => h w (List.mem_cons_of_mem v hw)
      simp only [Signature.coerceAll]
      split
      · next w hw => exact List.forall_mem_cons.2 ⟨hP.coerce? hv hw, hvs⟩
      · exact List.forall_mem_cons.2 ⟨hv, hvs⟩

/-- The arguments chosen for a signature keep an admissible predicate. -/
theorem firstSatisfied {args : List Value} {index : Nat} {overloads : List Signature}
    {found : Satisfied} (h : ∀ v ∈ args, P v)
    (hf : BrightScript.firstSatisfied args index overloads = some found) :
    ∀ v ∈ found.args, P v := by
  induction overloads generalizing index with
  | nil => cases hf
  | cons s rest ih =>
    unfold BrightScript.firstSatisfied at hf
    split at hf
    · next coerced hs =>
      cases hf
      unfold Signature.satisfy? at hs
      split at hs
      · cases hs; exact hP.coerceAll h
      · cases hs
    · exact ih hf

/-- A method found on a value is bound to an object of its own component. -/
theorem method? {name : String} {c : Callable} (h : P v) (hc : v.method? name = some c) :
    P (.function c) := by
  unfold Value.method? at hc
  split at hc
  · next component hv =>
    obtain ⟨m, hm, rfl⟩ := Option.map_eq_some_iff.1 hc
    have hm := Component.component_of_method? hm
    exact hP.method (by rw [hv, hm]) (hP.box h)
  · cases hc

/-- A function read from an associative array is the one that was stored. -/
theorem readFrom {source : AssocRef} (h : P v) : P (v.readFrom source) := by
  cases v with
  | function c =>
    obtain ⟨i, target, context⟩ := c
    exact hP.context h
  | _ => exact h

/-- The result of an operator on one operand keeps an admissible predicate. -/
theorem unary? {op : UnaryOp} (h : P v) (hw : Run.unary? op v = some w) : P w := by
  cases op with
  | plus => cases hw; exact h
  | negate =>
    simp only [Run.unary?] at hw
    split at hw
    · cases ha : v.arithmetic .multiply (.integer (-1)) with
      | error _ => rw [ha] at hw; cases hw
      | ok r =>
        rw [ha] at hw
        cases hw
        exact hP.plain (Value.isPlain_arithmetic ha)
    · cases hw
  | not =>
    simp only [Run.unary?] at hw
    split at hw
    · cases hw; exact hP.plain rfl
    · exact hP.plain (Value.isPlain_complement? hw)

end Admissible

end BrightScript
