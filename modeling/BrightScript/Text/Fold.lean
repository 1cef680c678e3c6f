/-!
# Folded words

Names, keys, labels and keywords are compared without regard to the case of ASCII letters. Each of
them is folded to ASCII lower case before it is compared or stored as a key, so two spellings name
the same thing exactly when `sameWord` holds. Letters outside ASCII are left alone.
-/

namespace BrightScript.Text

def fold (s : String) : String :=
  String.ofList (s.toList.map Char.toLower)

def sameWord (a b : String) : Bool :=
  fold a == fold b

@[simp] theorem toList_fold (s : String) : (fold s).toList = s.toList.map Char.toLower := by
  simp [fold]

theorem toNat_of_capital {c : Char} (h : c.val ≥ 'A'.val ∧ c.val ≤ 'Z'.val) :
    65 ≤ c.val.toNat ∧ 97 ≤ c.toLower.val.toNat := by
  have hlow : 65 ≤ c.val.toNat := UInt32.le_iff_toNat_le.1 h.1
  have hhigh : c.val.toNat ≤ 90 := UInt32.le_iff_toNat_le.1 h.2
  have hval : c.toLower.val = c.val + ('a'.val - 'A'.val) := congrArg Char.val (dif_pos h)
  have hsum : (c.val + ('a'.val - 'A'.val)).toNat = c.val.toNat + 32 := by
    rw [UInt32.toNat_add]
    exact Nat.mod_eq_of_lt (show c.val.toNat + 32 < 4294967296 by omega)
  rw [hval, hsum]
  omega

theorem toLower_toLower (c : Char) : c.toLower.toLower = c.toLower := by
  by_cases hcapital : c.val ≥ 'A'.val ∧ c.val ≤ 'Z'.val
  · refine dif_neg fun hagain => ?_
    have hhigh : c.toLower.val.toNat ≤ 90 := UInt32.le_iff_toNat_le.1 hagain.2
    have hlow := (toNat_of_capital hcapital).2
    omega
  · have heq : c.toLower = c := dif_neg hcapital
    rw [heq, heq]

@[simp] theorem fold_fold (s : String) : fold (fold s) = fold s := by
  rw [fold, toList_fold, List.map_map]
  exact congrArg String.ofList (List.map_congr_left fun c _ => toLower_toLower c)

theorem sameWord_iff (a b : String) : sameWord a b = true ↔ fold a = fold b := by
  simp [sameWord]

end BrightScript.Text
