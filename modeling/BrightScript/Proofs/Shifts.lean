import BrightScript.Evaluate.Program
import BrightScript.Proofs.IntegerArithmetic

/-!
# Shifts of integers

The amount of a shift is looked at twice: on its double, to see whether it lies between 0 and 31,
and as a 32-bit integer of which only the low bits count, to shift by it. An integer that passes the
first look is the same in the second one (`Run.isShiftAmount_iff`, `Number.toInt_toInt32`), so a
shift by `k` multiplies or divides by `2 ^ k` (`shift_evaluates`).
-/

namespace BrightScript

/-! ## Shifts of words -/

section Words

variable {w : Nat} {amount : BitVec w} (bits : BitVec w) (hlow : 0 ≤ amount.toInt)
  (hhigh : amount.toInt < bits.toInt)
include hlow hhigh

/-- An amount in range is not changed when it is reduced to the number of bits. -/
theorem toNat_smod : (amount.smod bits).toNat = amount.toInt.toNat := by
  have hsame : amount.smod bits = amount := by
    refine BitVec.eq_of_toInt_eq ?_
    rw [BitVec.toInt_smod]
    exact Int.fmod_eq_of_lt hlow hhigh
  have hbound := amount.isLt
  rw [hsame]
  rw [BitVec.toInt_eq_toNat_cond] at hlow ⊢
  split at hlow <;> omega

theorem toInt_shiftLeft_smod (x : BitVec w) : (x <<< amount.smod bits).toInt =
    (x.toInt * (Nat.pow 2 amount.toInt.toNat : Nat)).bmod (Nat.pow 2 w) := by
  rw [BitVec.shiftLeft_eq', BitVec.toInt_shiftLeft, toNat_smod bits hlow hhigh, Nat.shiftLeft_eq,
    BitVec.toInt_eq_toNat_bmod x, Int.natCast_mul]
  exact (Int.bmod_mul_bmod ..).symm

theorem toInt_sshiftRight_smod (x : BitVec w) : (x.sshiftRight' (amount.smod bits)).toInt =
    x.toInt / (Nat.pow 2 amount.toInt.toNat : Nat) := by
  rw [BitVec.toInt_sshiftRight', toNat_smod bits hlow hhigh, Int.shiftRight_eq_div_pow]
  rfl

end Words

/-! ## Shifts of numbers -/

inductive Shift where
  | left
  | right
  deriving DecidableEq, Repr

namespace Shift

def operator : Shift → BinaryOp
  | left => .leftShift
  | right => .rightShift

/-- An integer shifted by a number of bits, in exact numbers. To the left it is multiplied and
reduced to its width. To the right it is divided, and rounded down; if it has 32 bits they are taken
for a natural number, and the result is not above the greatest integer. -/
def exact : Shift → Width → Int → Nat → Int
  | left, w, m, k => w.wrap (m * (Nat.pow 2 k : Nat))
  | right, .integer, m, k => min (m % 4294967296 / (Nat.pow 2 k : Nat)) 2147483647
  | right, .longInteger, m, k => m / (Nat.pow 2 k : Nat)

end Shift

namespace Number

theorem toNat_toUInt32 (x : Int32) : (x.toUInt32.toNat : Int) = x.toInt % 4294967296 := by
  have hint : x.toInt = x.toBitVec.toInt := rfl
  have hnat : x.toUInt32.toNat = x.toBitVec.toNat := rfl
  have hbound := x.toBitVec.isLt
  rw [hint, hnat, BitVec.toInt_eq_toNat_cond]
  split <;> omega

/-- A natural number that is not below 2 ^ 31 becomes the greatest integer. -/
theorem toInt_saturated (n : UInt32) :
    (if n < 0x80000000 then n.toInt32 else Int32.maxValue).toInt =
      min (n.toNat : Int) 2147483647 := by
  by_cases hless : n < 0x80000000
  · have hlimit : n.toNat < 2147483648 := UInt32.lt_iff_toNat_lt.1 hless
    have hint := toNat_toUInt32 n.toInt32
    rw [UInt32.toUInt32_toInt32] at hint
    have hlow := n.toInt32.le_toInt
    have hhigh := n.toInt32.toInt_lt
    rw [if_pos hless]
    omega
  · have hlimit : ¬n.toNat < 2147483648 := fun h => hless (UInt32.lt_iff_toNat_lt.2 h)
    rw [if_neg hless, Int32.toInt_maxValue]
    omega

theorem toInt_shiftBitsRight (x : Int32) {y : Int32} (hlow : 0 ≤ y.toInt) (hhigh : y.toInt < 32) :
    (shiftBitsRight x y).toInt = Shift.right.exact .integer x.toInt y.toInt.toNat := by
  have hamount : y.toUInt32.toNat = y.toInt.toNat := by
    have hy := toNat_toUInt32 y
    omega
  have hshifted : (x.toUInt32 >>> y.toUInt32).toNat =
      x.toUInt32.toNat / Nat.pow 2 y.toInt.toNat := by
    rw [UInt32.toNat_shiftRight, hamount, Nat.mod_eq_of_lt (by omega), Nat.shiftRight_eq_div_pow]
    rfl
  rw [Shift.exact, ← toNat_toUInt32, ← Int.natCast_ediv, ← hshifted]
  exact toInt_saturated _

variable {a b : Number} {v w : Width} {m n : Int}

/-- As a 32-bit integer the amount is the same. -/
theorem toInt_toInt32 (hb : b.whole? = some (w, n)) (hlow : 0 ≤ n) (hhigh : n < 32) :
    b.toInt32.toInt = n := by
  obtain ⟨y, rfl, -, rfl⟩ | ⟨y, rfl, -, rfl⟩ := whole?_eq_some hb
  · rfl
  · rw [toInt32, Int64.toInt_toInt32]
    exact Int.bmod_eq_of_le (by omega) (by omega)

theorem whole?_shiftLeft (ha : a.whole? = some (v, m)) (hb : b.whole? = some (w, n))
    (hlow : 0 ≤ n) (hhigh : n < 32) :
    (a.shiftLeft b).whole? = some (v, Shift.left.exact v m n.toNat) := by
  obtain rfl := toInt_toInt32 hb hlow hhigh
  obtain ⟨x, rfl, rfl, rfl⟩ | ⟨x, rfl, rfl, rfl⟩ := whole?_eq_some ha
  · refine congrArg (fun k => some (Width.integer, k)) ?_
    exact toInt_shiftLeft_smod 32 hlow hhigh x.toBitVec
  · refine congrArg (fun k => some (Width.longInteger, k)) ?_
    rw [← Int32.toInt_toInt64] at hlow hhigh ⊢
    exact toInt_shiftLeft_smod 64 hlow (Int.lt_trans hhigh (by decide)) x.toBitVec

theorem whole?_shiftRight (ha : a.whole? = some (v, m)) (hb : b.whole? = some (w, n))
    (hlow : 0 ≤ n) (hhigh : n < 32) :
    (a.shiftRight b).whole? = some (v, Shift.right.exact v m n.toNat) := by
  obtain rfl := toInt_toInt32 hb hlow hhigh
  obtain ⟨x, rfl, rfl, rfl⟩ | ⟨x, rfl, rfl, rfl⟩ := whole?_eq_some ha
  · exact congrArg (fun k => some (Width.integer, k)) (toInt_shiftBitsRight x hlow hhigh)
  · refine congrArg (fun k => some (Width.longInteger, k)) ?_
    rw [← Int32.toInt_toInt64] at hlow hhigh ⊢
    exact toInt_sshiftRight_smod 64 hlow (Int.lt_trans hhigh (by decide)) x.toBitVec

end Number

/-! ## Shift expressions -/

theorem Value.computes_shift (d : Shift) {a b : Value} {v w : Width} {m n : Int}
    (ha : a.unbox.whole? = some (v, m)) (hb : b.unbox.whole? = some (w, n)) (hlow : 0 ≤ n)
    (hhigh : n < 32) : a.Computes d.operator b v (d.exact v m n.toNat) := by
  obtain ⟨x, y, hm, hn, happly⟩ := arithmetic_of_whole? ha hb
  cases d with
  | left => exact ⟨x.shiftLeft y, happly .leftShift, Number.whole?_shiftLeft hm hn hlow hhigh⟩
  | right => exact ⟨x.shiftRight y, happly .rightShift, Number.whole?_shiftRight hm hn hlow hhigh⟩

namespace Run

theorem isShiftAmount_iff {b : Value} {w : Width} {n : Int} (hb : b.whole? = some (w, n)) :
    isShiftAmount b = true ↔ 0 ≤ n ∧ n < 32 := by
  have hdouble (y : Int64) : (decide (-1 < Decimal.ofInt64 y) && decide (Decimal.ofInt64 y < 32)) =
      true ↔ 0 ≤ y.toInt ∧ y.toInt < 32 := by
    rw [Bool.and_eq_true, decide_eq_true_iff, decide_eq_true_iff, Decimal.neg_one_lt_ofInt64_iff,
      Decimal.ofInt64_lt_thirtyTwo_iff]
  cases b with
  | integer y =>
    cases hb
    rw [← Int32.toInt_toInt64]
    exact hdouble y.toInt64
  | longInteger y =>
    cases hb
    exact hdouble y
  | _ => cases hb

theorem isNumber_of_whole? {a : Value} {v : Width} {m : Int} (ha : a.whole? = some (v, m)) :
    a.isNumber = true := by
  cases a with
  | integer | longInteger => rfl
  | _ => cases ha

/-- A shift of two integers is a fault at the amount, or the result of the operator. -/
theorem operate_shift (d : Shift) {left right : Evaluated} (location : Location) {v w : Width}
    {m n : Int} (ha : left.value.whole? = some (v, m)) (hb : right.value.whole? = some (w, n)) :
    operate d.operator left right location =
      if isShiftAmount right.value then arithmetic d.operator left right location
      else fault .badBitShift right.location := by
  have hnumbers : (left.value.isNumber && right.value.isNumber) = true := by
    rw [isNumber_of_whole? ha, isNumber_of_whole? hb]
    rfl
  cases d <;> cases hamount : isShiftAmount right.value <;>
    simp [operate, Shift.operator, hnumbers, hamount]

end Run

namespace Evaluator

/-- An operator other than `and` and `or` works on the values of its operands, taken out of their
boxes. -/
theorem binary_apply (ev : Evaluator) {left right : Expr} {op : BinaryOp} {s t u : Session}
    {a b : Value} (hand : op ≠ .and) (hor : op ≠ .or) (hleft : ev.evaluate left s = .done a t)
    (hright : ev.evaluate right t = .done b u) (location : Location) :
    ev.binary left op right location s =
      Run.operate op ⟨a.unbox, left.location⟩ ⟨b.unbox, right.location⟩ location u := by
  rw [binary, operand, operand]
  simp only [bind_assoc, pure_bind]
  rw [Routine.bind_apply, hleft]
  dsimp only
  rw [if_neg (not_or.2 ⟨hand, hor⟩), Routine.bind_apply, hright]

end Evaluator

/-- A shift of integers of any widths, in boxes or not. The expression raises error 30 just if the
amount is negative or greater than 31. Otherwise its value is the left integer shifted by exactly
the amount, with the width of that integer. -/
theorem shift_evaluates (d : Shift) (budget : Nat) (left right : Expr) (location : Location)
    (s t u : Session) (a b : Value) (v w : Width) (m n : Int)
    (hleft : evaluate budget left { s with location := location } = .done a t)
    (hright : evaluate budget right t = .done b u)
    (ha : a.unbox.whole? = some (v, m)) (hb : b.unbox.whole? = some (w, n)) :
    ((∃ e r, evaluate (budget + 1) (.binary left d.operator right location) s =
        .exit (.error e) r ∧ e.number = 30) ↔ n < 0 ∨ 31 < n) ∧
    (0 ≤ n → n ≤ 31 → ∃ r,
      evaluate (budget + 1) (.binary left d.operator right location) s = .done r u ∧
      r.whole? = some (v, d.exact v m n.toNat)) := by
  have hbinary : evaluate (budget + 1) (.binary left d.operator right location) s =
      Run.operate d.operator ⟨a.unbox, left.location⟩ ⟨b.unbox, right.location⟩ location u :=
    Evaluator.binary_apply ⟨evaluate budget, execute budget⟩ (by cases d <;> decide)
      (by cases d <;> decide) hleft hright location
  have hamount := Run.isShiftAmount_iff hb
  rw [hbinary, Run.operate_shift d location ha hb]
  by_cases hrange : 0 ≤ n ∧ n < 32
  · obtain ⟨r, hr, hwhole⟩ := Value.computes_shift d (Value.whole?_unbox ha)
      (Value.whole?_unbox hb) hrange.1 hrange.2
    rw [if_pos (hamount.2 hrange), Run.arithmetic, hr]
    refine ⟨⟨?_, fun hout => by omega⟩, fun _ _ => ⟨r, rfl, hwhole⟩⟩
    rintro ⟨e, t', hexit, -⟩
    cases hexit
  · rw [if_neg (mt hamount.1 hrange)]
    refine ⟨⟨fun _ => by omega, fun _ => ⟨_, _, rfl, rfl⟩⟩, fun hlow hhigh => ?_⟩
    exact absurd ⟨hlow, by omega⟩ hrange

/-- An amount of which the low 32 bits make 1 is refused. By 1, the bits of a negative integer are
shifted as those of a natural number. -/
theorem shift_evaluates_literals :
    (∃ e t, evaluate 2 (.binary (.literal (.integer 1) .builtin) .leftShift
        (.literal (.longInteger 4294967297) .builtin) .builtin) (.new .standard) =
      .exit (.error e) t ∧ e.number = 30) ∧
    ∃ r t, evaluate 2 (.binary (.literal (.integer (-8)) .builtin) .rightShift
        (.literal (.integer 1) .builtin) .builtin) (.new .standard) = .done r t ∧
      r.whole? = some (.integer, 2147483644) := by
  constructor
  · have h := shift_evaluates .left 1 (.literal (.integer 1) .builtin)
      (.literal (.longInteger 4294967297) .builtin) .builtin (.new .standard) _ _ _ _ .integer
      .longInteger 1 4294967297 rfl rfl rfl rfl
    exact h.1.2 (.inr (by decide))
  · have h := shift_evaluates .right 1 (.literal (.integer (-8)) .builtin)
      (.literal (.integer 1) .builtin) .builtin (.new .standard) _ _ _ _ .integer .integer (-8) 1
      rfl rfl rfl rfl
    obtain ⟨r, hr, hwhole⟩ := h.2 (by decide) (by decide)
    exact ⟨r, _, hr, hwhole⟩

end BrightScript
