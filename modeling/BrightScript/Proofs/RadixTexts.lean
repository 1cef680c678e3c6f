import BrightScript.Proofs.LibraryDefaults
import BrightScript.Proofs.Literals

/-!
# Integers in bases

`StrI` writes an integer in a base and `Val` reads it. Base ten has its own way of writing, with a
blank in the place of a missing sign. It is brought back to `Text.writeInt`, so one argument covers
all bases: no written character is blank, a capital or part of the mark `0x`, and thus reading drops
nothing of the number.
-/

namespace BrightScript

namespace Text

variable {base : Nat}

theorem toString_eq_writeInt (n : Int) : toString n = writeInt 10 n := by
  have hnat (k : Nat) : k.repr = String.ofList (radixFigures 10 k) := by
    rw [Nat.repr_eq_ofList_toDigits, toDigits_eq_radixFigures (by decide) (by decide)]
  cases n with
  | ofNat k => exact hnat k
  | negSucc k =>
    rw [writeInt, if_pos (Int.negSucc_lt_zero k), Int.natAbs_negSucc, ← hnat]
    rfl

theorem mem_writeInt {c : Char} {n : Int} (h : c ∈ (writeInt base n).toList) :
    c = '-' ∨ c ∈ radixFigures base n.natAbs := by
  rw [writeInt] at h
  split at h
  · simpa using h
  · exact .inr (by simpa using h)

theorem takeSign_writeInt (hlow : 1 < base) (hhigh : base ≤ 36) (n : Int) :
    Decimal.takeSign (writeInt base n).toList = (decide (n < 0), radixFigures base n.natAbs) := by
  rw [writeInt]
  by_cases hn : n < 0
  · simp [hn, Decimal.takeSign]
  · obtain ⟨c, rest, hfigures⟩ := List.exists_cons_of_ne_nil (radixFigures_ne_nil base n.natAbs)
    obtain ⟨d, hd, rfl⟩ := exists_radixDigit hlow (hfigures ▸ List.mem_cons_self)
    have hall : ∀ d, d < 36 → radixDigit d ≠ '-' ∧ radixDigit d ≠ '+' := by decide
    obtain ⟨hminus, hplus⟩ := hall d (Nat.lt_of_lt_of_le hd hhigh)
    simp [hn, hfigures, NumericLiteral.takeSign_cons, hminus, hplus]

theorem readInt64?_writeInt (hlow : 1 < base) (hhigh : base ≤ 36) (v : Int32) :
    readInt64? base (writeInt base v.toInt).toList = some v.toInt64 := by
  have hvalue : (if v.toInt < 0 then -(v.toInt.natAbs : Int) else v.toInt.natAbs) = v.toInt := by
    omega
  have hfits : Int64.minValue.toInt ≤ v.toInt ∧ v.toInt ≤ Int64.maxValue.toInt := by
    rw [← Int32.toInt_toInt64]
    exact ⟨Int64.le_iff_toInt_le.1 (Int64.minValue_le _),
      Int64.le_iff_toInt_le.1 (Int64.le_maxValue _)⟩
  rw [readInt64?, takeSign_writeInt hlow hhigh]
  dsimp only
  rw [if_neg (by simp [radixFigures_ne_nil]), readNat_radixFigures hlow hhigh]
  simp only [Option.bind_eq_bind, Option.bind_some, decide_eq_true_eq, hvalue, hfits, decide_true,
    Bool.and_self, if_true, Int64.ofInt_int32ToInt]

theorem trim_append {pad text : String} (hpad : ∀ c ∈ pad.toList, isBlank c = true)
    (htext : ∀ c ∈ text.toList, isBlank c = false) : trim (pad ++ text) = text := by
  have hself {rest : List Char} (h : ∀ c ∈ rest, isBlank c = false) :
      rest.dropWhile isBlank = rest := by
    cases rest with
    | nil => rfl
    | cons c rest => exact List.dropWhile_cons_of_neg (by simp [h c List.mem_cons_self])
  rw [trim, trimStart, String.toList_append, List.dropWhile_append_of_pos hpad, hself htext,
    String.ofList_toList, trimEnd, hself fun c hc => htext c (List.mem_reverse.1 hc),
    List.reverse_reverse, String.ofList_toList]

end Text

namespace Library

variable {radix : Int} (hlow : 2 ≤ radix) (hhigh : radix ≤ 36)

/-- Characters that `Val` in a base neither drops nor changes. -/
def Kept (radix : Int) (c : Char) : Prop :=
  Text.isBlank c = false ∧ c.toLower = c ∧ (radix = 16 → c ≠ 'x')

theorem dropHexMark_eq {text : List Char} (h : 'x' ∉ text) : dropHexMark text = text := by
  unfold dropHexMark
  split
  · simp at h
  · rfl

include hlow hhigh

theorem kept_of_mem_writeInt {n : Int} {c : Char} (hc : c ∈ (Text.writeInt radix.toNat n).toList) :
    Kept radix c := by
  have hall : ∀ d, d < 36 →
      Text.isBlank (Text.radixDigit d) = false ∧ (Text.radixDigit d).toLower = Text.radixDigit d ∧
        (Text.radixDigit d = 'x' → 16 ≤ d) := by decide
  obtain rfl | hfigure := Text.mem_writeInt hc
  · exact ⟨rfl, rfl, fun _ => by decide⟩
  · obtain ⟨d, hd, rfl⟩ := Text.exists_radixDigit (by omega) hfigure
    obtain ⟨hblank, hlower, hx⟩ := hall d (by omega)
    refine ⟨hblank, hlower, fun hsixteen heq => ?_⟩
    have := hx heq
    omega

theorem radixValue_append {pad text : String} (hpad : ∀ c ∈ pad.toList, Text.isBlank c = true)
    (htext : ∀ c ∈ text.toList, Kept radix c) :
    radixValue (pad ++ text) radix =
      ((Text.readInt64? radix.toNat text.toList).getD 0).toInt32 := by
  have hfold : text.toList.map Char.toLower = text.toList := by
    rw [List.map_congr_left fun c hc => (htext c hc).2.1, List.map_id']
  rw [radixValue, if_pos ⟨hlow, hhigh⟩, Text.trim_append hpad fun c hc => (htext c hc).1]
  dsimp only
  rw [Text.toList_fold, hfold]
  split
  · next hsixteen => rw [dropHexMark_eq fun hx => (htext _ hx).2.2 hsixteen rfl]
  · rfl

theorem radixText_eq (v : Int32) :
    radixText v radix =
      (if radix = 10 ∧ 0 ≤ v then " " else "") ++ Text.writeInt radix.toNat v.toInt := by
  rw [radixText, Text.toString_eq_writeInt]
  by_cases hten : radix = 10
  · simp [hten]
  · simp [hten, hlow, hhigh]

theorem radixValue_radixText (v : Int32) : radixValue (radixText v radix) radix = v := by
  have hpad : ∀ c ∈ (if radix = 10 ∧ 0 ≤ v then " " else "").toList, Text.isBlank c = true := by
    split <;> simp [show Text.isBlank ' ' = true from rfl]
  rw [radixText_eq hlow hhigh,
    radixValue_append hlow hhigh hpad fun c => kept_of_mem_writeInt hlow hhigh,
    Text.readInt64?_writeInt (by omega) (by omega), Option.getD_some, Int32.toInt32_toInt64]

end Library

namespace Evaluator

variable (ev : Evaluator) (budget : Nat) (context : Option AssocRef) (location closing : Location)
variable (s : Session)

theorem call_strI (v r : Int32) :
    ev.call budget (.ofBuiltin .strI) [.integer v, .integer r] context location closing s =
      .done (.string (Library.radixText v r.toInt)) s := by
  refine ev.call_of_invoke budget rfl rfl ?_ context location closing
  rw [← Int32.toInt_toInt64 r]
  show Outcome.done (Value.string (Library.radixText (Int32.ofInt v.toInt64.toInt) _)) s = _
  rw [Int32.toInt_toInt64 v, Int32.ofInt_toInt]
  rfl

theorem call_val (text : String) (r : Int32) :
    ev.call budget (.ofBuiltin .val) [.string text, .integer r] context location closing s =
      .done (.integer (Library.radixValue text r.toInt)) s := by
  refine ev.call_of_invoke budget rfl rfl ?_ context location closing
  rw [← Int32.toInt_toInt64 r]
  rfl

end Evaluator

/-- What `StrI` writes in a base from 2 to 36, `Val` reads as the same integer in that base. -/
theorem strI_reads_back (ev : Evaluator) (budget : Nat) (v r : Int32) (hlow : 2 ≤ r)
    (hhigh : r ≤ 36) :
    ∃ text, ∀ (context : Option AssocRef) (location closing : Location) (s : Session),
      ev.call budget (.ofBuiltin .strI) [.integer v, .integer r] context location closing s =
          .done (.string text) s ∧
        ev.call budget (.ofBuiltin .val) [.string text, .integer r] context location closing s =
          .done (.integer v) s := by
  refine ⟨Library.radixText v r.toInt, fun context location closing s => ⟨?_, ?_⟩⟩
  · exact ev.call_strI budget context location closing s v r
  · rw [ev.call_val budget context location closing s,
      Library.radixValue_radixText (Int32.le_iff_toInt_le.1 hlow) (Int32.le_iff_toInt_le.1 hhigh)]

/-- The magnitude of the least integer is no integer of 32 bits. -/
theorem strI_reads_back_least :
    (Evaluator.ofBudget 1).call 1 (.ofBuiltin .val) [.string "-zik0zk", .integer 36] none .builtin
        .builtin (.new .standard) = .done (.integer (-2147483648)) (.new .standard) := by
  obtain ⟨text, h⟩ := strI_reads_back (.ofBudget 1) 1 (-2147483648) 36 (by decide) (by decide)
  obtain ⟨hwritten, hread⟩ := h none .builtin .builtin (.new .standard)
  rw [Evaluator.call_strI] at hwritten
  simp only [Outcome.done.injEq, Value.string.injEq, and_true] at hwritten
  obtain rfl : "-zik0zk" = text := .trans (by decide +kernel) hwritten
  exact hread

end BrightScript
