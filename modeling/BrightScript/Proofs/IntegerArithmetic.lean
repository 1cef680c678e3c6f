import BrightScript.Proofs.WholeDoubles
import BrightScript.Value.Arithmetic

/-!
# Arithmetic of integers

There are integers of 32 and of 64 bits, and an operation on two of them has the wider width. Sums,
differences, products and quotients are the exact ones, reduced to that width; the quotient is the
one toward zero. The exact remainder always fits. So quotient and remainder make up the dividend
again, also where the quotient does not fit (`integer_arithmetic`).

Whether the divisor of a quotient is zero is seen on its double, and whether that of a remainder is,
on the integer itself. Both come to the same (`Number.isZero_iff`, `Number.isWholeZero_iff`).
-/

namespace BrightScript

inductive Width where
  | integer
  | longInteger
  deriving DecidableEq, Repr

namespace Width

def size : Width → Nat
  | integer => 4294967296
  | longInteger => 18446744073709551616

/-- The given integer in two's complement: the one of the width that differs from it by a multiple
of the size. -/
def wrap (w : Width) (n : Int) : Int :=
  n.bmod w.size

def join : Width → Width → Width
  | integer, integer => integer
  | _, _ => longInteger

def Fits (w : Width) (n : Int) : Prop :=
  -(w.size / 2 : Nat) ≤ n ∧ n < (w.size / 2 : Nat)

theorem wrap_of_fits {w : Width} {n : Int} (h : w.Fits n) : w.wrap n = n := by
  obtain ⟨hlow, hhigh⟩ := h
  cases w <;> exact Int.bmod_eq_of_le hlow hhigh

theorem Fits.join_left {v : Width} {n : Int} (h : v.Fits n) (w : Width) : (v.join w).Fits n := by
  cases v <;> cases w <;> simp only [Fits, join, size] at h ⊢ <;> omega

/-- The remainder toward zero lies between zero and the dividend. -/
theorem Fits.tmod {w : Width} {m : Int} (h : w.Fits m) (n : Int) : w.Fits (m.tmod n) := by
  have hle : (m.tmod n).natAbs ≤ m.natAbs := by
    rw [Int.natAbs_tmod]
    exact Nat.mod_le _ _
  obtain ⟨hlow, hhigh⟩ := h
  obtain hm | hm := Int.le_total 0 m
  · have hnonneg := Int.tmod_nonneg n hm
    exact ⟨by omega, by omega⟩
  · have hnonneg := Int.tmod_nonneg n (Int.neg_nonneg.2 hm)
    rw [Int.neg_tmod] at hnonneg
    exact ⟨by omega, by omega⟩

/-- The quotient can be reduced before it is multiplied, and the product before the remainder is
added. -/
theorem wrap_quotient_mul_add (w : Width) (m n : Int) :
    w.wrap (w.wrap (w.wrap (m.tdiv n) * n) + m.tmod n) = w.wrap m := by
  simp only [wrap, Int.bmod_add_bmod, Int.bmod_mul_bmod]
  rw [Int.mul_comm, Int.mul_tdiv_add_tmod]

theorem join_join_right (v w : Width) : (v.join w).join w = v.join w := by
  cases v <;> cases w <;> rfl

theorem join_self (w : Width) : w.join w = w := by
  cases w <;> rfl

end Width

def Value.whole? : Value → Option (Width × Int)
  | integer n => some (.integer, n.toInt)
  | longInteger n => some (.longInteger, n.toInt)
  | _ => none

/-! ## Numbers -/

namespace Number

def whole? : Number → Option (Width × Int)
  | integer n => some (.integer, n.toInt)
  | longInteger n => some (.longInteger, n.toInt)
  | _ => none

theorem whole?_eq_some {a : Number} {w : Width} {n : Int} (h : a.whole? = some (w, n)) :
    (∃ k : Int32, a = integer k ∧ w = .integer ∧ n = k.toInt) ∨
    (∃ k : Int64, a = longInteger k ∧ w = .longInteger ∧ n = k.toInt) := by
  cases a with
  | integer k => cases h; exact .inl ⟨k, rfl, rfl, rfl⟩
  | longInteger k => cases h; exact .inr ⟨k, rfl, rfl, rfl⟩
  | float | double => cases h

variable {a b : Number} {v w : Width} {m n : Int}

theorem fits_of_whole? (ha : a.whole? = some (v, m)) : v.Fits m := by
  obtain ⟨x, -, rfl, rfl⟩ | ⟨x, -, rfl, rfl⟩ := whole?_eq_some ha
  · exact ⟨x.le_toInt, x.toInt_lt⟩
  · exact ⟨x.le_toInt, x.toInt_lt⟩

theorem isWhole_of_whole? (ha : a.whole? = some (v, m)) : a.isWhole = true := by
  obtain ⟨x, rfl, -⟩ | ⟨x, rfl, -⟩ := whole?_eq_some ha <;> rfl

theorem isZero_iff (hb : b.whole? = some (w, n)) : b.isZero = true ↔ n = 0 := by
  obtain ⟨y, rfl, -, rfl⟩ | ⟨y, rfl, -, rfl⟩ := whole?_eq_some hb
  · show (Decimal.ofInt64 y.toInt64 == 0) = true ↔ _
    rw [Decimal.ofInt64_beq_zero_iff, ← Int64.toInt_inj, Int32.toInt_toInt64]
    rfl
  · show (Decimal.ofInt64 y == 0) = true ↔ _
    rw [Decimal.ofInt64_beq_zero_iff, ← Int64.toInt_inj]
    rfl

theorem isWholeZero_iff (hb : b.whole? = some (w, n)) : b.isWholeZero = true ↔ n = 0 := by
  obtain ⟨y, rfl, -, rfl⟩ | ⟨y, rfl, -, rfl⟩ := whole?_eq_some hb
  · show (y == 0) = true ↔ _
    rw [beq_iff_eq, ← Int32.toInt_inj]
    rfl
  · show (y == 0) = true ↔ _
    rw [beq_iff_eq, ← Int64.toInt_inj]
    rfl

/-- An operation in the widest kind of its operands that computes an exact result and reduces it. -/
theorem whole?_widest {onInt32 : Int32 → Int32 → Int32} {onInt64 : Int64 → Int64 → Int64}
    {onFloat : Float → Float → Float} {f : Int → Int → Int}
    (h32 : ∀ x y, (onInt32 x y).toInt = Width.integer.wrap (f x.toInt y.toInt))
    (h64 : ∀ x y, (onInt64 x y).toInt = Width.longInteger.wrap (f x.toInt y.toInt))
    (ha : a.whole? = some (v, m)) (hb : b.whole? = some (w, n)) :
    (widest onInt32 onInt64 onFloat a b).whole? = some (v.join w, (v.join w).wrap (f m n)) := by
  obtain ⟨x, rfl, rfl, rfl⟩ | ⟨x, rfl, rfl, rfl⟩ := whole?_eq_some ha <;>
    obtain ⟨y, rfl, rfl, rfl⟩ | ⟨y, rfl, rfl, rfl⟩ := whole?_eq_some hb
  · exact congrArg (fun k => some (Width.integer, k)) (h32 x y)
  all_goals
    refine congrArg (fun k => some (Width.longInteger, k)) ((h64 _ _).trans ?_)
    simp only [toInt64, Int32.toInt_toInt64, Width.join]

theorem whole?_add (ha : a.whole? = some (v, m)) (hb : b.whole? = some (w, n)) :
    (a.add b).whole? = some (v.join w, (v.join w).wrap (m + n)) :=
  whole?_widest (f := (· + ·)) Int32.toInt_add Int64.toInt_add ha hb

theorem whole?_sub (ha : a.whole? = some (v, m)) (hb : b.whole? = some (w, n)) :
    (a.sub b).whole? = some (v.join w, (v.join w).wrap (m - n)) :=
  whole?_widest (f := (· - ·)) Int32.toInt_sub Int64.toInt_sub ha hb

theorem whole?_mul (ha : a.whole? = some (v, m)) (hb : b.whole? = some (w, n)) :
    (a.mul b).whole? = some (v.join w, (v.join w).wrap (m * n)) :=
  whole?_widest (f := (· * ·)) Int32.toInt_mul Int64.toInt_mul ha hb

/-- The remainder fits in the width of the dividend, so it is exact. -/
theorem mod_whole (ha : a.whole? = some (v, m)) (hb : b.whole? = some (w, n)) (hn : n ≠ 0) :
    ∃ r, a.mod b = .ok r ∧ r.whole? = some (v.join w, m.tmod n) := by
  have hzero : b.isWholeZero = false := by
    rw [Bool.eq_false_iff, ne_eq, isWholeZero_iff hb]
    exact hn
  have h32 (x y : Int32) : (x % y).toInt = Width.integer.wrap (x.toInt.tmod y.toInt) := by
    rw [Int32.toInt_mod]
    exact (Width.wrap_of_fits (Width.Fits.tmod ⟨x.le_toInt, x.toInt_lt⟩ _)).symm
  have h64 (x y : Int64) : (x % y).toInt = Width.longInteger.wrap (x.toInt.tmod y.toInt) := by
    rw [Int64.toInt_mod]
    exact (Width.wrap_of_fits (Width.Fits.tmod ⟨x.le_toInt, x.toInt_lt⟩ _)).symm
  refine ⟨_, by rw [mod, hzero, Bool.and_false]; rfl, ?_⟩
  rw [whole?_widest h32 h64 ha hb, Width.wrap_of_fits]
  exact ((fits_of_whole? ha).join_left w).tmod n

theorem mod_eq_error_iff (ha : a.whole? = some (v, m)) (hb : b.whole? = some (w, n)) :
    a.mod b = .error .divideByZero ↔ n = 0 := by
  rw [mod, isWhole_of_whole? ha, Bool.true_and, ← isWholeZero_iff hb]
  cases b.isWholeZero <;> simp

theorem intDiv_whole (ha : a.whole? = some (v, m)) (hb : b.whole? = some (w, n)) (hn : n ≠ 0) :
    ∃ q, a.intDiv b = .ok q ∧ q.whole? = some (v.join w, (v.join w).wrap (m.tdiv n)) := by
  have hzero : b.isZero = false := by
    rw [Bool.eq_false_iff, ne_eq, isZero_iff hb]
    exact hn
  refine ⟨a.wholeQuotient b, by rw [intDiv, hzero]; rfl, ?_⟩
  obtain ⟨x, rfl, rfl, rfl⟩ | ⟨x, rfl, rfl, rfl⟩ := whole?_eq_some ha <;>
    obtain ⟨y, rfl, rfl, rfl⟩ | ⟨y, rfl, rfl, rfl⟩ := whole?_eq_some hb
  · exact congrArg (fun k => some (Width.integer, k)) (Int32.toInt_div x y)
  all_goals
    refine congrArg (fun k => some (Width.longInteger, k)) ((Int64.toInt_div _ _).trans ?_)
    simp only [Int32.toInt_toInt64, Width.join]
    rfl

theorem intDiv_eq_error_iff (hb : b.whole? = some (w, n)) :
    a.intDiv b = .error .divideByZero ↔ n = 0 := by
  rw [intDiv, ← isZero_iff hb]
  cases b.isZero <;> simp

end Number

/-! ## Values -/

namespace Value

/-- An operator gives an integer of the given width on two values. -/
def Computes (a : Value) (op : BinaryOp) (b : Value) (w : Width) (k : Int) : Prop :=
  ∃ r, a.arithmetic op b = .ok r ∧ r.whole? = some (w, k)

theorem ofValue?_of_whole? {a : Value} {w : Width} {n : Int} (h : a.unbox.whole? = some (w, n)) :
    ∃ x : Number, Number.ofValue? a = some x ∧ x.whole? = some (w, n) := by
  rw [Number.ofValue?]
  cases hunbox : a.unbox with
  | integer k => exact ⟨.integer k, rfl, by rw [hunbox] at h; exact h⟩
  | longInteger k => exact ⟨.longInteger k, rfl, by rw [hunbox] at h; exact h⟩
  | _ => rw [hunbox] at h; cases h

theorem whole?_unbox {a : Value} {w : Width} {n : Int} (h : a.whole? = some (w, n)) :
    a.unbox.whole? = some (w, n) := by
  cases a with
  | boxed content => cases h
  | _ => exact h

theorem fits_of_whole? {a : Value} {v : Width} {m : Int} (ha : a.unbox.whole? = some (v, m)) :
    v.Fits m := by
  obtain ⟨x, -, hm⟩ := ofValue?_of_whole? ha
  exact Number.fits_of_whole? hm

section Operators

variable {a b : Value} {v w : Width} {m n : Int} (ha : a.unbox.whole? = some (v, m))
  (hb : b.unbox.whole? = some (w, n))
include ha hb

/-- All operators work on the numbers that the operands are. -/
theorem arithmetic_of_whole? : ∃ x y : Number, x.whole? = some (v, m) ∧ y.whole? = some (w, n) ∧
    ∀ op, a.arithmetic op b = x.apply op y := by
  obtain ⟨x, hx, hm⟩ := ofValue?_of_whole? ha
  obtain ⟨y, hy, hn⟩ := ofValue?_of_whole? hb
  exact ⟨x, y, hm, hn, fun op => by rw [arithmetic, hx, hy]⟩

theorem computes_add : a.Computes .add b (v.join w) ((v.join w).wrap (m + n)) := by
  obtain ⟨x, y, hm, hn, happly⟩ := arithmetic_of_whole? ha hb
  exact ⟨x.add y, happly .add, Number.whole?_add hm hn⟩

theorem computes_subtract : a.Computes .subtract b (v.join w) ((v.join w).wrap (m - n)) := by
  obtain ⟨x, y, hm, hn, happly⟩ := arithmetic_of_whole? ha hb
  exact ⟨x.sub y, happly .subtract, Number.whole?_sub hm hn⟩

theorem computes_multiply : a.Computes .multiply b (v.join w) ((v.join w).wrap (m * n)) := by
  obtain ⟨x, y, hm, hn, happly⟩ := arithmetic_of_whole? ha hb
  exact ⟨x.mul y, happly .multiply, Number.whole?_mul hm hn⟩

theorem computes_intDivide (hzero : n ≠ 0) :
    a.Computes .intDivide b (v.join w) ((v.join w).wrap (m.tdiv n)) := by
  obtain ⟨x, y, hm, hn, happly⟩ := arithmetic_of_whole? ha hb
  obtain ⟨q, hq, hwhole⟩ := Number.intDiv_whole hm hn hzero
  exact ⟨q, (happly .intDivide).trans hq, hwhole⟩

theorem computes_modulo (hzero : n ≠ 0) : a.Computes .modulo b (v.join w) (m.tmod n) := by
  obtain ⟨x, y, hm, hn, happly⟩ := arithmetic_of_whole? ha hb
  obtain ⟨r, hr, hwhole⟩ := Number.mod_whole hm hn hzero
  exact ⟨r, (happly .modulo).trans hr, hwhole⟩

theorem divideByZero_iff :
    (a.arithmetic .intDivide b = .error .divideByZero ↔ n = 0) ∧
    (a.arithmetic .modulo b = .error .divideByZero ↔ n = 0) := by
  obtain ⟨x, y, hm, hn, happly⟩ := arithmetic_of_whole? ha hb
  rw [happly, happly]
  exact ⟨Number.intDiv_eq_error_iff hn, Number.mod_eq_error_iff hm hn⟩

end Operators

end Value

/-- The remainder toward zero is smaller than the divisor, and it has the sign of the dividend. -/
theorem tmod_bounds (m : Int) {n : Int} (hn : n ≠ 0) :
    (m.tmod n).natAbs < n.natAbs ∧ (m.tmod n = 0 ∨ (m.tmod n).sign = m.sign) := by
  constructor
  · rw [Int.natAbs_tmod]
    exact Nat.mod_lt _ (Int.natAbs_pos.2 hn)
  · rw [Int.sign_tmod]
    by_cases hdvd : n ∣ m
    · exact .inl (Int.tmod_eq_zero_of_dvd hdvd)
    · exact .inr (if_neg hdvd)

/-- For all operands that are integers of the widths `v` and `w`, in boxes or not. Sum, difference
and product are the exact ones, reduced to 64 bits if one of the operands has them and else to 32.
Quotient and remainder fail just if the divisor is zero. Otherwise the quotient is the exact one
toward zero, reduced in the same way, and the remainder is smaller than the divisor and zero or of
the sign of the dividend; and the product of quotient and divisor plus the remainder, in the
arithmetic of this width, is the dividend. -/
theorem integer_arithmetic (a b : Value) (v w : Width) (m n : Int)
    (ha : a.unbox.whole? = some (v, m)) (hb : b.unbox.whole? = some (w, n)) :
    a.Computes .add b (v.join w) ((v.join w).wrap (m + n)) ∧
    a.Computes .subtract b (v.join w) ((v.join w).wrap (m - n)) ∧
    a.Computes .multiply b (v.join w) ((v.join w).wrap (m * n)) ∧
    (a.arithmetic .intDivide b = .error .divideByZero ↔ n = 0) ∧
    (a.arithmetic .modulo b = .error .divideByZero ↔ n = 0) ∧
    (n ≠ 0 → ∃ q r p k,
      a.arithmetic .intDivide b = .ok q ∧ a.arithmetic .modulo b = .ok r ∧
      q.whole? = some (v.join w, (v.join w).wrap (m.tdiv n)) ∧
      r.whole? = some (v.join w, k) ∧ k.natAbs < n.natAbs ∧ (k = 0 ∨ k.sign = m.sign) ∧
      q.arithmetic .multiply b = .ok p ∧ p.Computes .add r (v.join w) m) := by
  obtain ⟨hquotient, hremainder⟩ := Value.divideByZero_iff ha hb
  refine ⟨Value.computes_add ha hb, Value.computes_subtract ha hb, Value.computes_multiply ha hb,
    hquotient, hremainder, fun hn => ?_⟩
  obtain ⟨q, hq, hqwhole⟩ := Value.computes_intDivide ha hb hn
  obtain ⟨r, hr, hrwhole⟩ := Value.computes_modulo ha hb hn
  obtain ⟨p, hp, hpwhole⟩ := Value.computes_multiply (Value.whole?_unbox hqwhole) hb
  rw [Width.join_join_right] at hpwhole
  have hsum := Value.computes_add (Value.whole?_unbox hpwhole) (Value.whole?_unbox hrwhole)
  rw [Width.join_self, Width.wrap_quotient_mul_add,
    Width.wrap_of_fits ((Value.fits_of_whole? ha).join_left w)] at hsum
  obtain ⟨hless, hsign⟩ := tmod_bounds m hn
  exact ⟨q, r, p, m.tmod n, hq, hr, hqwhole, hrwhole, hless, hsign, hp, hsum⟩

/-- The most negative integer divided by -1: the quotient does not fit, and comes back as the
dividend. -/
theorem integer_arithmetic_of_least :
    ∃ q r p k, (Value.integer (-2147483648)).arithmetic .intDivide (.integer (-1)) = .ok q ∧
      (Value.integer (-2147483648)).arithmetic .modulo (.integer (-1)) = .ok r ∧
      q.whole? = some (.integer, -2147483648) ∧ r.whole? = some (.integer, k) ∧
      k.natAbs < 1 ∧ q.arithmetic .multiply (.integer (-1)) = .ok p ∧
      p.Computes .add r .integer (-2147483648) := by
  obtain ⟨-, -, -, -, -, h⟩ := integer_arithmetic (.integer (-2147483648)) (.integer (-1)) .integer
    .integer (-2147483648) (-1) rfl rfl
  obtain ⟨q, r, p, k, hq, hr, hqwhole, hrwhole, hless, -, hp, hsum⟩ := h (by decide)
  exact ⟨q, r, p, k, hq, hr, hqwhole, hrwhole, hless, hp, hsum⟩

end BrightScript
