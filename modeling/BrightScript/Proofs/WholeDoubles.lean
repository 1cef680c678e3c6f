import Mathlib.Data.Nat.Log
import BrightScript.Decimal.Whole

/-!
# Integers seen as doubles

A zero test and a range test are made on the double of a number. A double has 53 bits, so that of a
64-bit integer can be another number. It is still a number with the same sign, and its exponent
tells how many bits the integer has: exactly if they are at most 53, and otherwise it is at least as
large as those of all smaller integers. Hence a test against zero, -1 or 32 on the double is the
same test on the integer (`ofInt64_beq_zero_iff`, `neg_one_lt_ofInt64_iff`,
`ofInt64_lt_thirtyTwo_iff`).

Doubles are taken apart into sign, mantissa and exponent by `Float.Model.unpack`, and rounding is
followed through its two shifts of the mantissa. A mantissa with the full precision is one whose
binary logarithm is 52.
-/

namespace BrightScript.Decimal

variable {m : Nat} {n : Int64} {e : Int}

open Float.Model (Format UnpackedFloat totalExponent)
open Float.Model.UnpackedFloat

/-! ## Rounding -/

theorem log2_shiftRight (m n : Nat) : (m >>> n).log2 = m.log2 - n := by
  rw [Nat.log2_eq_log_two, Nat.log2_eq_log_two, Nat.shiftRight_eq_div_pow, Nat.log_div_base_pow]

theorem log2_shiftLeft (h : m ≠ 0) (n : Nat) : (m <<< n).log2 = m.log2 + n := by
  induction n with
  | zero => rfl
  | succ n ih =>
    have hpos : m <<< n ≠ 0 := by
      rwa [ne_eq, Nat.shiftLeft_eq_zero_iff]
    rw [Nat.shiftLeft_succ, Nat.log2_two_mul hpos, ih]
    omega

theorem mantissa_shiftRight (em : ExtendedMantissa) (n : Nat) :
    (em >>> n).mantissa = em.mantissa >>> n := by
  show (n.repeat ExtendedMantissa.shiftRightOne em).mantissa = _
  induction n with
  | zero => rfl
  | succ n ih =>
    rw [Nat.shiftRight_succ, ← ih]
    rfl

/-- What is left of a mantissa with at least 53 bits when it is shifted to have 53. -/
theorem log2_mantissa_shiftRight (hm : 52 ≤ m.log2) :
    (ExtendedMantissa.mk m false false >>> (m.log2 - 52)).mantissa.log2 = 52 := by
  rw [mantissa_shiftRight, log2_shiftRight]
  exact Nat.sub_sub_self hm

theorem roundedMantissa_bounds (em : ExtendedMantissa) :
    em.mantissa ≤ em.roundedMantissa ∧ em.roundedMantissa ≤ em.mantissa + 1 := by
  obtain ⟨m, round, sticky⟩ := em
  cases round <;> cases sticky <;>
    simp only [ExtendedMantissa.roundedMantissa, ExtendedMantissa.accuracy,
      Accuracy.roundToNearestEven] <;> omega

/-- The shift that leaves 53 bits of a mantissa that has at least as many. -/
theorem shiftToTargetExponent_eq (hm : 52 ≤ m.log2) (he : -1074 ≤ e) :
    shiftToTargetExponent .binary64 m e .exact =
      (ExtendedMantissa.mk m false false >>> (m.log2 - 52), e + (m.log2 - 52 : Nat)) := by
  have htarget : (Format.binary64.targetExponent (totalExponent m e) - e).toNat = m.log2 - 52 := by
    show (max ((m.log2 : Int) + 1 + e - 53) (-1074) - e).toNat = _
    omega
  rw [shiftToTargetExponent, shiftToExponent, htarget]
  rfl

/-- Rounding a number with at least 53 bits leaves 53, and the exponent grows by the number of bits
that are dropped, or by one more. Nothing happens to a number with just 53 bits. -/
theorem roundWithAccuracy_eq_finite (s : Sign) (hm : 52 ≤ m.log2) (he : -1074 ≤ e) :
    ∃ m' e' h, roundWithAccuracy .binary64 s m e .exact = .finite s m' e' h ∧ m'.log2 = 52 ∧
      e + (m.log2 - 52) ≤ e' ∧ e' ≤ e + (m.log2 - 52) + 1 ∧ (m.log2 = 52 → e' = e) := by
  let em := ExtendedMantissa.mk m false false >>> (m.log2 - 52)
  have hmantissa : em.mantissa.log2 = 52 := log2_mantissa_shiftRight hm
  -- the rounded mantissa has a bit more than 53 only if it is the next power of two
  obtain ⟨hlow, hhigh⟩ := roundedMantissa_bounds em
  have hne : em.mantissa ≠ 0 := fun hzero => by
    rw [hzero] at hmantissa
    exact absurd hmantissa (by decide)
  obtain ⟨hleast, hmost⟩ := (Nat.log2_eq_iff hne).1 hmantissa
  have hlog : 52 ≤ em.roundedMantissa.log2 := (Nat.le_log2 (by omega)).2 (by omega)
  have hlog' : em.roundedMantissa.log2 < 54 := (Nat.log2_lt (by omega)).2 (by omega)
  have hexact : m.log2 = 52 → em.roundedMantissa = m := fun h => by
    show (ExtendedMantissa.mk m false false >>> (m.log2 - 52)).roundedMantissa = m
    rw [h]
    rfl
  let final := ExtendedMantissa.mk em.roundedMantissa false false >>> (em.roundedMantissa.log2 - 52)
  have hfinal : final.mantissa.log2 = 52 := log2_mantissa_shiftRight hlog
  have hpos : final.mantissa ≠ 0 := fun hzero => by
    rw [hzero] at hfinal
    exact absurd hfinal (by decide)
  refine ⟨final.mantissa, e + (m.log2 - 52 : Nat) + (em.roundedMantissa.log2 - 52 : Nat),
    Nat.pos_of_ne_zero hpos, ?_, hfinal, by omega, by omega, ?_⟩
  · rw [roundWithAccuracy, shiftToTargetExponent_eq hm he]
    dsimp only
    rw [shiftToTargetExponent_eq hlog (by omega)]
    exact dif_neg hpos
  · intro h
    rw [hexact h]
    omega

/-! ## Bits -/

theorem unpack_sign (s : Sign) (exponent : BitVec 11) (mantissa : BitVec 52) :
    Sign.ofBitVec (unpackSign (packComponents .binary64 s exponent mantissa)) = s := by
  have hbit : unpackSign (packComponents .binary64 s exponent mantissa) = s.toBitVec := by
    show BitVec.extractLsb' (52 + 11) 1 (s.toBitVec ++ exponent ++ mantissa) = s.toBitVec
    rw [BitVec.extractLsb'_append_eq_of_le (by decide),
      BitVec.extractLsb'_append_eq_of_le (by decide)]
    exact BitVec.extractLsb'_eq_self
  rw [hbit]
  cases s <;> rfl

/-- The bits of a double with an exponent that is neither the least nor the greatest. -/
theorem unpack_packComponents {s : Sign} {exponent : BitVec 11} {mantissa : BitVec 52} (h : 0 < m)
    (hones : exponent ≠ -1#11) (hzero : exponent ≠ 0#11) (hm : (1#1 ++ mantissa).toNat = m)
    (he : (exponent.toNat : Int) - (Format.binary64.exponentBias + (52 : Nat)) = e) :
    unpack .binary64 (packComponents .binary64 s exponent mantissa) = .finite s m e h := by
  subst hm he
  have hexponent : unpackExponent (packComponents .binary64 s exponent mantissa) = exponent :=
    unpackExponent_packComponents
  have hmantissa : unpackMantissa (packComponents .binary64 s exponent mantissa) = mantissa :=
    unpackMantissa_packComponents
  delta unpack
  dsimp only
  rw [hexponent, if_neg hones, if_neg hzero, unpack_sign]
  congr 1
  rw [hmantissa]

/-- A double with the full precision and an exponent in range is kept by its bits. -/
theorem unpack_pack_finite {s : Sign} (h : 0 < m) (hm : m.log2 = 52) (hlow : -1074 ≤ e)
    (hhigh : e ≤ 970) : unpack .binary64 (pack .binary64 (.finite s m e h)) = .finite s m e h := by
  obtain ⟨hleast, hmost⟩ := (Nat.log2_eq_iff (by omega)).1 hm
  obtain ⟨biased, hbiased⟩ : ∃ biased : Nat, e + 1075 = biased := ⟨(e + 1075).toNat, by omega⟩
  have hpack : pack .binary64 (.finite s m e h) =
      packComponents .binary64 s (BitVec.ofNat 11 biased) (BitVec.ofNat 52 m) := by
    have hsum : (e + Format.binary64.exponentBias + (52 : Nat)).toNat = biased := by
      show (e + (1023 : Nat) + (52 : Nat)).toNat = biased
      omega
    delta pack
    dsimp only
    rw [hsum, if_neg (by omega), if_pos (by rw [hm]; rfl)]
  have hexponent : (BitVec.ofNat 11 biased).toNat = biased := by
    rw [BitVec.toNat_ofNat, Nat.mod_eq_of_lt (by omega)]
  have hones : BitVec.ofNat 11 biased ≠ -1#11 := fun heq => by
    have hall : biased = 2047 := hexponent.symm.trans (congrArg BitVec.toNat heq)
    omega
  have hzero : BitVec.ofNat 11 biased ≠ 0#11 := fun heq => by
    have hnone : biased = 0 := hexponent.symm.trans (congrArg BitVec.toNat heq)
    omega
  have hmantissa : (1#1 ++ BitVec.ofNat 52 m).toNat = m := by
    rw [BitVec.toNat_append, ← Nat.shiftLeft_add_eq_or_of_lt (BitVec.isLt _), BitVec.toNat_ofNat]
    show 1 <<< 52 + m % 2 ^ 52 = m
    omega
  have hdifference : (biased : Int) - (Format.binary64.exponentBias + (52 : Nat)) = e := by
    show (biased : Int) - ((1023 : Nat) + (52 : Nat)) = e
    omega
  rw [hpack]
  exact unpack_packComponents h hones hzero hmantissa (by rw [hexponent]; exact hdifference)

/-! ## Integers -/

/-- The double has a sign and 53 bits, and its leading bit is that of a number of the given
magnitude, or the one above if the magnitude has more than 53 bits. -/
def IsWhole (x : UnpackedFloat) (s : Sign) (magnitude : Nat) : Prop :=
  ∃ m e h, x = .finite s m e h ∧ m.log2 = 52 ∧ (magnitude.log2 : Int) - 52 ≤ e ∧
    e ≤ (magnitude.log2 : Int) - 51 ∧ (magnitude.log2 ≤ 52 → e = (magnitude.log2 : Int) - 52)

theorem isWhole_round (s : Sign) {n : Nat} (hn : n ≠ 0) :
    IsWhole (UnpackedFloat.round .binary64 s n 0) s n := by
  have htarget : (0 - Format.binary64.targetExponent (totalExponent n 0)).toNat = 52 - n.log2 := by
    show (0 - max ((n.log2 : Int) + 1 + 0 - 53) (-1074)).toNat = _
    omega
  have hlog : (n <<< (52 - n.log2)).log2 = n.log2 + (52 - n.log2) := log2_shiftLeft hn _
  obtain ⟨m, e, h, heq, hm, hleast, hmost, hexact⟩ := roundWithAccuracy_eq_finite s
    (m := n <<< (52 - n.log2)) (e := 0 - (52 - n.log2 : Nat)) (by omega) (by omega)
  rw [UnpackedFloat.round, decreaseExponent, htarget]
  exact ⟨m, e, h, heq, hm, by omega, by omega, by omega⟩

theorem IsWhole.unpack_pack {x : UnpackedFloat} {s : Sign} {n : Nat} (h : IsWhole x s n)
    (hn : n.log2 ≤ 64) : IsWhole (unpack .binary64 (pack .binary64 x)) s n := by
  obtain ⟨m, e, hpos, rfl, hm, hleast, hmost, hexact⟩ := h
  refine ⟨m, e, hpos, ?_, hm, hleast, hmost, hexact⟩
  exact unpack_pack_finite hpos hm (by omega) (by omega)

theorem IsWhole.neg {x : UnpackedFloat} {n : Nat} (h : IsWhole x .positive n) :
    IsWhole x.neg .negative n := by
  obtain ⟨m, e, hpos, rfl, hm⟩ := h
  exact ⟨m, e, hpos, rfl, hm⟩

theorem isWhole_toFloat {n : UInt64} (hn : n ≠ 0) :
    IsWhole n.toFloat.toModel.unpack .positive n.toNat := by
  have hne : n.toNat ≠ 0 := fun h => hn (UInt64.toNat_inj.1 h)
  have hlog : n.toNat.log2 < 64 := (Nat.log2_lt hne).2 n.toNat_lt
  have hround : ofUInt64 .binary64 n = UnpackedFloat.round .binary64 .positive n.toNat 0 := by
    have hcompare : compare (n.toNat : Int) 0 = .gt := by
      rw [Int.compare_eq_gt]
      omega
    rw [ofUInt64, ofNat, ofInt, UnpackedFloat.normalize, hcompare]
    rfl
  have h : IsWhole (ofUInt64 .binary64 n) .positive n.toNat := by
    rw [hround]
    exact isWhole_round .positive hne
  exact h.unpack_pack (by omega)

theorem toNat_toUInt64 (h : 0 ≤ n.toInt) : n.toUInt64.toNat = n.toInt.natAbs := by
  have hint : n.toInt = n.toBitVec.toInt := rfl
  have hnat : n.toUInt64.toNat = n.toBitVec.toNat := rfl
  rw [hint, BitVec.toInt_eq_toNat_cond] at h ⊢
  omega

theorem toNat_toUInt64_neg (h : n.toInt < 0) : (-n).toUInt64.toNat = n.toInt.natAbs := by
  have hint : n.toInt = n.toBitVec.toInt := rfl
  have hnat : (-n).toUInt64.toNat = (-n.toBitVec).toNat := by
    rw [← Int64.toBitVec_neg]
    rfl
  have hbound := n.toBitVec.isLt
  rw [hnat, BitVec.toNat_neg]
  rw [hint, BitVec.toInt_eq_toNat_cond] at h ⊢
  omega

theorem isWhole_ofInt64_of_pos (h : 0 < n.toInt) :
    IsWhole (ofInt64 n).toModel.unpack .positive n.toInt.natAbs := by
  have hsign : ¬n < 0 := by
    rw [Int64.lt_iff_toInt_lt, Int64.toInt_zero]
    omega
  have hmagnitude := toNat_toUInt64 (n := n) (by omega)
  have hne : n.toUInt64 ≠ 0 := fun hzero => by
    rw [hzero] at hmagnitude
    exact absurd hmagnitude.symm (by rw [UInt64.toNat_zero]; omega)
  rw [ofInt64, if_neg hsign, ← hmagnitude]
  exact isWhole_toFloat hne

theorem isWhole_ofInt64_of_neg (h : n.toInt < 0) :
    IsWhole (ofInt64 n).toModel.unpack .negative n.toInt.natAbs := by
  have hsign : n < 0 := by
    rw [Int64.lt_iff_toInt_lt, Int64.toInt_zero]
    exact h
  have hmagnitude := toNat_toUInt64_neg h
  have hne : (-n).toUInt64 ≠ 0 := fun hzero => by
    rw [hzero] at hmagnitude
    exact absurd hmagnitude.symm (by rw [UInt64.toNat_zero]; omega)
  have hlog : (-n).toUInt64.toNat.log2 < 64 :=
    (Nat.log2_lt fun h => hne (UInt64.toNat_inj.1 h)).2 (UInt64.toNat_lt _)
  rw [ofInt64, if_pos hsign, ← hmagnitude]
  exact (isWhole_toFloat hne).neg.unpack_pack (by omega)

/-- The double of an integer is zero or has the sign of the integer and its leading bit. -/
theorem unpack_ofInt64_cases (n : Int64) :
    n = 0 ∧ (ofInt64 n).toModel.unpack = .zero .positive ∨
    0 < n.toInt ∧ IsWhole (ofInt64 n).toModel.unpack .positive n.toInt.natAbs ∨
    n.toInt < 0 ∧ IsWhole (ofInt64 n).toModel.unpack .negative n.toInt.natAbs := by
  obtain hpos | hzero | hneg := Int.lt_trichotomy 0 n.toInt
  · exact .inr (.inl ⟨hpos, isWhole_ofInt64_of_pos hpos⟩)
  · obtain rfl : n = 0 := Int64.toInt_inj.1 hzero.symm
    exact .inl ⟨rfl, rfl⟩
  · exact .inr (.inr ⟨hneg, isWhole_ofInt64_of_neg hneg⟩)

/-! ## Tests on the double -/

theorem lt_iff_compare (x y : Float) :
    x < y ↔ x.toModel.unpack.compare y.toModel.unpack = some .lt := by
  show decide (x.toModel < y.toModel) = true ↔ _
  rw [decide_eq_true_iff]
  show (_ == some Ordering.lt) = true ↔ _
  rw [beq_iff_eq]

theorem beq_iff_compare (x y : Float) :
    (x == y) = true ↔ x.toModel.unpack.compare y.toModel.unpack = some .eq := by
  show (_ == some Ordering.eq) = true ↔ _
  rw [beq_iff_eq]

theorem unpack_zero : (0 : Float).toModel.unpack = .zero .positive := rfl

theorem unpack_thirtyTwo :
    (32 : Float).toModel.unpack = .finite .positive 4503599627370496 (-47) (by decide) := rfl

theorem unpack_neg_one :
    (-1 : Float).toModel.unpack = .finite .negative 4503599627370496 (-52) (by decide) := rfl

/-- An integer is zero just if its double is. -/
theorem ofInt64_beq_zero_iff (n : Int64) : (ofInt64 n == 0) = true ↔ n = 0 := by
  rw [beq_iff_compare, unpack_zero]
  obtain ⟨hzero, hparts⟩ | ⟨hpos, m, e, h, hparts, -⟩ | ⟨hneg, m, e, h, hparts, -⟩ :=
    unpack_ofInt64_cases n
  · rw [hparts]
    exact iff_of_true rfl hzero
  · rw [hparts]
    refine iff_of_false (fun hcompare => by cases hcompare) ?_
    rintro rfl
    exact absurd hpos (by decide)
  · rw [hparts]
    refine iff_of_false (fun hcompare => by cases hcompare) ?_
    rintro rfl
    exact absurd hneg (by decide)

/-- The double of a negative integer has at least the magnitude 1. -/
theorem neg_one_lt_ofInt64_iff (n : Int64) : -1 < ofInt64 n ↔ 0 ≤ n.toInt := by
  rw [lt_iff_compare, unpack_neg_one]
  obtain ⟨rfl, hparts⟩ | ⟨hpos, m, e, h, hparts, -⟩ | ⟨hneg, m, e, h, hparts, hm, hleast, -⟩ :=
    unpack_ofInt64_cases n
  · rw [hparts]
    exact iff_of_true rfl (by decide)
  · rw [hparts]
    exact iff_of_true rfl (by omega)
  · rw [hparts]
    refine iff_of_false (fun hcompare => ?_) (by omega)
    have hswap := Option.some.inj hcompare
    rw [Ordering.swap_eq_lt, Ordering.then_eq_gt, Int.compare_eq_gt, Nat.compare_eq_gt] at hswap
    have hfull := ((Nat.log2_eq_iff (by omega)).1 hm).1
    omega

/-- The double of an integer from 32 on has its leading bit at the place of that of 32 or above. -/
theorem ofInt64_lt_thirtyTwo_iff (n : Int64) : ofInt64 n < 32 ↔ n.toInt < 32 := by
  rw [lt_iff_compare, unpack_thirtyTwo]
  obtain ⟨rfl, hparts⟩ | ⟨hpos, m, e, h, hparts, hm, hleast, -, hexact⟩ |
      ⟨hneg, m, e, h, hparts, -⟩ := unpack_ofInt64_cases n
  · rw [hparts]
    exact iff_of_true rfl (by decide)
  · have hfull := ((Nat.log2_eq_iff (by omega)).1 hm).1
    have hlog : n.toInt.natAbs.log2 < 5 ↔ n.toInt.natAbs < 32 := Nat.log2_lt (by omega)
    rw [hparts]
    show some ((compare e (-47)).then (compare m 4503599627370496)) = some .lt ↔ _
    rw [Option.some_inj, Ordering.then_eq_lt, Int.compare_eq_lt, Int.compare_eq_eq,
      Nat.compare_eq_lt]
    omega
  · rw [hparts]
    exact iff_of_true rfl (by omega)

end BrightScript.Decimal
