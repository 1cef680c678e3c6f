import BrightScript.Proofs.IntegerArithmetic
import BrightScript.Proofs.Parameters

/-!
# Laws of coercion

Values are turned into demanded kinds by two rules, one of parameters and results and one of
variables with a kind letter. A result of the first rule has the demanded kind and is left as it is
when the rule is applied again; a value that is boxed can be taken out of the box again; and what
the second rule gives, the first one gives as well (`coercion_laws`).

Both rules look into a box. They agree because a box never holds an object (`Value.HoldsPrimitive`):
otherwise the second rule would take the object out where the first one keeps the box.
-/

namespace BrightScript

namespace Value

/-- A value that, if it is a box, holds no object. -/
def HoldsPrimitive (v : Value) : Prop :=
  ∀ content, v.content? = some content → content.isObject = false

theorem holdsPrimitive_box {v : Value} (h : v.HoldsPrimitive) : v.box.HoldsPrimitive := by
  unfold box
  split
  · next hboxable =>
    rintro _ ⟨⟩
    exact ((isBoxable_iff v).1 hboxable).1
  · exact h

/-! ## Demanded kinds -/

/-- What a value may be turned into for a demanded kind: a value of that kind, or, where any value
or any object will do, the value itself. -/
def Meets (w v : Value) : Kind → Prop
  | .dynamic => w = v
  | .interface => w = v ∧ v.isObject = true
  | k => w.kind = k

theorem meets_of_coerce? {v w : Value} {k : Kind} (h : v.coerce? k = some w) : w.Meets v k := by
  cases k with
  | dynamic =>
    rw [coerce?_dynamic] at h
    exact (Option.some.inj h).symm
  | interface =>
    rw [coerce?_interface] at h
    obtain ⟨hobject, h⟩ := Option.ite_none_right_eq_some.1 h
    exact ⟨(Option.some.inj h).symm, hobject⟩
  | _ => exact kind_of_coerce? h (by decide) (by decide)

/-! ## Boxes

No value has one of the two kinds that let values of other kinds through, and only objects have the
kind of objects.
-/

theorem kind_ne_dynamic (v : Value) : v.kind ≠ .dynamic := by
  cases v <;> simp [kind]

theorem kind_ne_interface (v : Value) : v.kind ≠ .interface := by
  cases v <;> simp [kind]

theorem kind_ne_object {v : Value} (h : v.isObject = false) : v.kind ≠ .object := by
  rw [ne_eq, kind_eq_object_iff, h]
  exact Bool.false_ne_true

theorem coerce?_object {v : Value} (h : v.isBoxable = true) :
    v.coerce? .object = some (boxed v) := by
  have hkind := kind_ne_object ((isBoxable_iff v).1 h).1
  rw [coerce?, if_neg (by simpa using hkind), if_pos h]

/-- A kind that is neither that of objects nor one that lets other kinds through is met by the
content of a box. -/
theorem coerce?_boxed (content : Value) {k : Kind} (hobject : k ≠ .object)
    (hinterface : k ≠ .interface) (hdynamic : k ≠ .dynamic) :
    (boxed content).coerce? k = content.coerce? k := by
  cases k with
  | object => exact absurd rfl hobject
  | interface => exact absurd rfl hinterface
  | dynamic => exact absurd rfl hdynamic
  | _ => rfl

theorem coerce?_unbox (v : Value) {k : Kind} (hobject : k ≠ .object)
    (hinterface : k ≠ .interface) (hdynamic : k ≠ .dynamic) : v.coerce? k = v.unbox.coerce? k := by
  cases v with
  | boxed content => exact coerce?_boxed content hobject hinterface hdynamic
  | _ => rfl

theorem coerce?_boxed_kind {content : Value} (h : content.isObject = false) :
    (boxed content).coerce? content.kind = some content := by
  rw [coerce?_boxed content (kind_ne_object h) content.kind_ne_interface content.kind_ne_dynamic]
  exact conforms_of_kind_eq rfl

/-! ## The rule of variables -/

theorem coerce?_of_coerceForDesignator? {v w : Value} {k : Kind} (hv : v.HoldsPrimitive)
    (h : v.coerceForDesignator? k = some w) : v.coerce? k = some w := by
  unfold coerceForDesignator? at h
  split at h
  · next hdynamic => rw [hdynamic, coerce?_dynamic, h]
  split at h
  · next hkind =>
    cases h
    subst hkind
    cases v with
    | boxed content => exact coerce?_boxed_kind (hv content rfl)
    | _ => exact conforms_of_kind_eq rfl
  -- What is left are the two widenings, which the rule of parameters makes as well.
  split at h
  · next hunbox _ _ =>
    rw [coerce?_unbox v (by decide) (by decide) (by decide), hunbox, ← h]
    rfl
  · next hunbox _ _ =>
    rw [coerce?_unbox v (by decide) (by decide) (by decide), hunbox, ← h]
    rfl
  · cases h

end Value

/-- The laws of coercion. What the rule of parameters gives for a demanded kind meets it and is kept
by the rule; a value that can be put in a box is, where an object is demanded, and comes out of the
box where its own kind is demanded; an integer survives the way to a long integer and back, and a
long integer is reduced to 32 bits. The rule of variables is a part of the rule of parameters. -/
theorem coercion_laws (v : Value) (hv : v.HoldsPrimitive) (k : Kind) :
    (∀ w, v.coerce? k = some w → w.Meets v k ∧ w.coerce? k = some w) ∧
    (v.isBoxable = true → ∃ b, v.coerce? .object = some b ∧ b.coerce? v.kind = some v) ∧
    (∀ n : Int32, ∃ l : Int64, l.toInt = n.toInt ∧
      (Value.integer n).coerce? .longInteger = some (.longInteger l) ∧
      (Value.longInteger l).coerce? .integer = some (.integer n)) ∧
    (∀ l : Int64, ∃ n : Int32, n.toInt = Width.integer.wrap l.toInt ∧
      (Value.longInteger l).coerce? .integer = some (.integer n)) ∧
    (∀ w, v.coerceForDesignator? k = some w → v.coerce? k = some w) := by
  refine ⟨fun w hw => ?_, fun hboxable => ?_, fun n => ?_, fun l => ?_, fun w hw => ?_⟩
  · exact ⟨Value.meets_of_coerce? hw, Value.conforms_of_coerce? hw⟩
  · exact ⟨.boxed v, Value.coerce?_object hboxable,
      Value.coerce?_boxed_kind ((Value.isBoxable_iff v).1 hboxable).1⟩
  · refine ⟨n.toInt64, Int32.toInt_toInt64 n, rfl, ?_⟩
    show some (Value.integer n.toInt64.toInt32) = _
    rw [Int32.toInt32_toInt64]
  · exact ⟨l.toInt32, Int64.toInt_toInt32 l, rfl⟩
  · exact Value.coerce?_of_coerceForDesignator? hv hw

/-- A boxed integer is widened by both rules. -/
theorem coercion_laws_of_boxed :
    (Value.integer 7).box.HoldsPrimitive ∧
    (Value.integer 7).box.coerceForDesignator? .longInteger = some (.longInteger 7) ∧
    (Value.integer 7).box.coerce? .longInteger = some (.longInteger 7) ∧
    (Value.longInteger 7).Meets (Value.integer 7).box .longInteger := by
  have hprimitive : (Value.integer 7).box.HoldsPrimitive :=
    Value.holdsPrimitive_box fun _ h => by cases h
  have hdesignator :
      (Value.integer 7).box.coerceForDesignator? .longInteger = some (.longInteger 7) := rfl
  obtain ⟨hmeets, -, -, -, hrestricts⟩ := coercion_laws _ hprimitive .longInteger
  have hcoerce := hrestricts _ hdesignator
  exact ⟨hprimitive, hdesignator, hcoerce, (hmeets _ hcoerce).1⟩

end BrightScript
