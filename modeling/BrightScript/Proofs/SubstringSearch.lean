import BrightScript.Proofs.LibraryDefaults
import BrightScript.Proofs.TextBytes

/-!
# Searching texts

`Instr` looks for a text in another one from a position on, and `Mid` cuts a piece out. Both count
characters, the global functions from one and the methods of strings from zero. What is found is the
first position from which `Mid` gives back the text that was looked for.
-/

namespace BrightScript

variable {needle text : String} {i position start k : Nat} {rest : List Char}

namespace Text

/-! ## The first occurrence -/

/-- A search gives the first place with the needle. The first character has the place
`position`. -/
theorem findIn_eq_some_iff {needle : List Char} :
    findIn needle rest position = some i ↔
      position ≤ i ∧ needle <+: rest.drop (i - position) ∧
        ∀ j, position ≤ j → j < i → ¬ needle <+: rest.drop (j - position) := by
  induction rest generalizing position with
  | nil =>
    cases needle with
    | nil =>
      simp only [findIn, List.isEmpty_nil, if_true, Option.some.injEq, List.nil_prefix,
        not_true_eq_false, true_and]
      constructor
      · rintro rfl
        exact ⟨Nat.le_refl _, fun j hj hlt => absurd hlt (Nat.not_lt.2 hj)⟩
      · rintro ⟨hle, hfirst⟩
        exact Nat.le_antisymm hle (Nat.not_lt.1 fun hlt => hfirst position (Nat.le_refl _) hlt)
    | cons c needle => simp [findIn]
  | cons c rest ih =>
    rw [findIn]
    by_cases hhere : needle <+: c :: rest
    · rw [if_pos (List.isPrefixOf_iff_prefix.2 hhere), Option.some.injEq]
      constructor
      · rintro rfl
        exact ⟨Nat.le_refl _, by simpa using hhere, fun j hj hlt => absurd hlt (Nat.not_lt.2 hj)⟩
      · rintro ⟨hle, -, hfirst⟩
        refine Nat.le_antisymm hle (Nat.not_lt.1 fun hlt => ?_)
        exact hfirst position (Nat.le_refl _) hlt (by simpa using hhere)
    · rw [if_neg fun h => hhere (List.isPrefixOf_iff_prefix.1 h), ih]
      have hdrop {j : Nat} (hj : position + 1 ≤ j) :
          (c :: rest).drop (j - position) = rest.drop (j - (position + 1)) := by
        rw [show j - position = j - (position + 1) + 1 by omega, List.drop_succ_cons]
      constructor
      · rintro ⟨hle, hi, hfirst⟩
        refine ⟨by omega, by rwa [hdrop hle], fun j hj hlt => ?_⟩
        obtain rfl | hj : j = position ∨ position + 1 ≤ j := by omega
        · simpa using hhere
        · rw [hdrop hj]
          exact hfirst j hj hlt
      · rintro ⟨hle, hi, hfirst⟩
        obtain rfl | hle : i = position ∨ position + 1 ≤ i := by omega
        · exact absurd (by simpa using hi) hhere
        · refine ⟨hle, by rwa [← hdrop hle], fun j hj hlt => ?_⟩
          rw [← hdrop hj]
          exact hfirst j (by omega) hlt

theorem findIn_eq_none_iff {needle : List Char} :
    findIn needle rest position = none ↔ ∀ j, ¬ needle <+: rest.drop j := by
  induction rest generalizing position with
  | nil => simp [findIn]
  | cons c rest ih =>
    rw [findIn]
    by_cases hhere : needle <+: c :: rest
    · rw [if_pos (List.isPrefixOf_iff_prefix.2 hhere)]
      refine iff_of_false (fun h => by cases h) fun h => h 0 hhere
    · rw [if_neg fun h => hhere (List.isPrefixOf_iff_prefix.1 h), ih]
      constructor
      · intro h j
        cases j with
        | zero => exact hhere
        | succ j => exact h j
      · exact fun h j => h (j + 1)

def OccursAt (text needle : String) (i : Nat) : Prop :=
  needle.toList <+: text.toList.drop i

theorem OccursAt.length_le (h : OccursAt text needle i) (hneedle : needle ≠ "") :
    i + needle.length ≤ text.length := by
  have hpos : 0 < needle.length :=
    Nat.pos_of_ne_zero fun h => hneedle (String.length_eq_zero_iff.1 h)
  have hle := List.IsPrefix.length_le h
  rw [List.length_drop, String.length_toList, String.length_toList] at hle
  omega

/-- A needle stands where cutting as many characters out gives it back. -/
theorem occursAt_iff_slice :
    OccursAt text needle i ↔ slice text i (some needle.length) = needle := by
  rw [OccursAt, List.prefix_iff_eq_take, slice, ← String.toList_inj, String.toList_ofList,
    String.length_toList, eq_comm]

theorem occursAt_of_slice {count : Option Nat} (h : slice text i count = needle) :
    OccursAt text needle i := by
  subst h
  cases count with
  | none => simp only [OccursAt, slice, String.toList_ofList, List.prefix_rfl]
  | some n =>
    rw [OccursAt, slice, String.toList_ofList]
    exact List.take_prefix _ _

/-- Beyond the end of the text there is nothing to be found, so the end needs no case of its own. -/
theorem findFrom_eq_findIn (hneedle : needle ≠ "") :
    findFrom text needle start = findIn needle.toList (text.toList.drop start) start := by
  rw [findFrom]
  split_ifs with hend
  · rw [List.drop_eq_nil_of_le (Nat.le_of_lt hend), findIn, if_neg (by simpa using hneedle)]
  · rfl

theorem findFrom_eq_some_iff (hneedle : needle ≠ "") :
    findFrom text needle start = some i ↔
      start ≤ i ∧ OccursAt text needle i ∧
        ∀ j, start ≤ j → j < i → ¬ OccursAt text needle j := by
  have hdrop {j : Nat} (hj : start ≤ j) :
      (text.toList.drop start).drop (j - start) = text.toList.drop j := by
    rw [List.drop_drop, Nat.add_sub_cancel' hj]
  rw [findFrom_eq_findIn hneedle, findIn_eq_some_iff]
  constructor
  · rintro ⟨hle, hi, hfirst⟩
    exact ⟨hle, by rwa [OccursAt, ← hdrop hle], fun j hj hlt h =>
      hfirst j hj hlt (by rwa [hdrop hj])⟩
  · rintro ⟨hle, hi, hfirst⟩
    exact ⟨hle, by rwa [hdrop hle], fun j hj hlt h =>
      hfirst j hj hlt (by rwa [OccursAt, ← hdrop hj])⟩

theorem findFrom_eq_none_iff (hneedle : needle ≠ "") :
    findFrom text needle start = none ↔ ∀ j, start ≤ j → ¬ OccursAt text needle j := by
  rw [findFrom_eq_findIn hneedle, findIn_eq_none_iff]
  constructor
  · intro h j hj hoccurs
    exact h (j - start) (by rwa [List.drop_drop, Nat.add_sub_cancel' hj])
  · intro h j
    rw [List.drop_drop]
    exact h (start + j) (Nat.le_add_right _ _)

/-! ## The first match of the bytes -/

/-- The first offset at which bytes stand among others. -/
def FirstMatch (needle rest : List UInt8) (k : Nat) : Prop :=
  needle <+: rest.drop k ∧ ∀ j < k, ¬ needle <+: rest.drop j

theorem FirstMatch.unique {needle rest : List UInt8} {j : Nat} (hj : FirstMatch needle rest j)
    (hk : FirstMatch needle rest k) : j = k :=
  Nat.le_antisymm (Nat.not_lt.1 fun h => hj.2 k h hk.1) (Nat.not_lt.1 fun h => hk.2 j h hj.1)

theorem byteLength_take_le {m n : Nat} (h : m ≤ n) (rest : List Char) :
    byteLength (rest.take m) ≤ byteLength (rest.take n) := by
  obtain ⟨k, rfl⟩ := Nat.le.dest h
  rw [List.take_add, byteLength_append]
  exact Nat.le_add_right _ _

/-- Where the characters are found first, so are the bytes. -/
theorem firstMatch_of_findIn {needle : List Char} (hneedle : needle ≠ [])
    (h : findIn needle rest position = some i) :
    FirstMatch (encode needle) (encode rest) (byteLength (rest.take (i - position))) := by
  obtain ⟨hle, hi, hfirst⟩ := findIn_eq_some_iff.1 h
  refine ⟨(encode_prefix_drop_iff hneedle).2 ⟨_, _, (List.take_append_drop _ _).symm, rfl, hi⟩, ?_⟩
  intro k hk hmatch
  obtain ⟨before, after, rfl, rfl, hafter⟩ := (encode_prefix_drop_iff hneedle).1 hmatch
  have hlt : before.length < i - position := by
    refine Nat.not_le.1 fun hge => Nat.not_lt.2 (byteLength_take_le hge (before ++ after)) ?_
    rwa [List.take_left]
  refine hfirst (position + before.length) (Nat.le_add_right _ _) (by omega) ?_
  rwa [Nat.add_sub_cancel_left, List.drop_left]

/-- Looking for the bytes and then counting the characters before them is looking for the
characters. -/
theorem firstMatch_iff_findIn {needle : List Char} (hneedle : needle ≠ []) :
    FirstMatch (encode needle) (encode rest) k ↔
      ∃ i, findIn needle rest position = some i ∧ k = byteLength (rest.take (i - position)) := by
  constructor
  · intro h
    cases hfind : findIn needle rest position with
    | none =>
      obtain ⟨before, after, rfl, -, hafter⟩ := (encode_prefix_drop_iff hneedle).1 h.1
      exact absurd (by rwa [List.drop_left]) (findIn_eq_none_iff.1 hfind before.length)
    | some i => exact ⟨i, rfl, h.unique (firstMatch_of_findIn hneedle hfind)⟩
  · rintro ⟨i, hfind, rfl⟩
    exact firstMatch_of_findIn hneedle hfind

end Text

/-! ## Calls -/

namespace Evaluator

variable (ev : Evaluator) (budget : Nat) (context : Option AssocRef) (location closing : Location)
variable (s : Session)

/-- A needle is what `Mid` cuts out of a text at a position, with the count that `Len` gives. -/
def CutsOut (text needle : String) (q : Int32) : Prop :=
  ∃ count,
    ev.call budget (.ofBuiltin .len) [.string needle] context location closing s = .done count s ∧
      ev.call budget (.ofBuiltin .mid) [.string text, .integer q, count] context location closing
        s = .done (.string needle) s

theorem call_len (text : String) :
    ev.call budget (.ofBuiltin .len) [.string text] context location closing s =
      .done (Library.int32 text.length) s :=
  ev.call_of_invoke budget rfl rfl rfl context location closing

theorem call_mid (text : String) (q n : Int32) :
    ev.call budget (.ofBuiltin .mid) [.string text, .integer q, .integer n] context location closing
        s =
      .done (.string (Library.substring text (q.toInt - 1) (some n.toInt))) s := by
  refine ev.call_of_invoke budget rfl rfl ?_ context location closing
  rw [← Int32.toInt_toInt64 q, ← Int32.toInt_toInt64 n]
  rfl

theorem call_instr {start : Int32} (hstart : 1 ≤ start) (text : String) (hneedle : needle ≠ "") :
    ev.call budget (.ofBuiltin .instr) [.integer start, .string text, .string needle] context
        location closing s =
      .done (Library.int32 (Library.find text needle (start.toInt - 1) + 1)) s := by
  have hmax : max start.toInt64.toInt 1 = start.toInt := by
    rw [Int32.toInt_toInt64]
    exact Int.max_eq_left (Int32.le_iff_toInt_le.1 hstart)
  refine ev.call_of_invoke budget rfl rfl ?_ context location closing
  rw [← hmax]
  show (if needle.isEmpty then _ else _ : Run Value) s = _
  rw [if_neg (by simpa using hneedle)]
  rfl

theorem call_instr_method {start : Int32} (hstart : 1 ≤ start) (text needle : String) :
    ev.call budget (.ofMethod (.string .instr) (.boxed (.string text)))
        [.integer (start - 1), .string needle] context location closing s =
      .done (Library.int32 (Library.find text needle (start.toInt - 1))) s := by
  have hprevious : (start - 1).toInt64.toInt = start.toInt - 1 := by
    have hle := Int32.le_iff_toInt_le.1 hstart
    have hone : (1 : Int32).toInt = 1 := rfl
    have hlt := start.toInt_lt
    rw [Int32.toInt_toInt64, Int32.toInt_sub, hone, Int.bmod_eq_of_le (by omega) (by omega)]
  refine ev.call_of_invoke budget rfl rfl ?_ context location closing
  rw [← hprevious]
  rfl

/-- A piece is cut out at the places where it stands. A count that does not fit in an integer is
that of a needle longer than the text. -/
theorem cutsOut_iff (htext : text.length < 2147483648) (hneedle : needle ≠ "") (q : Int32) :
    ev.CutsOut budget context location closing s text needle q ↔
      Text.OccursAt text needle (q.toInt - 1).toNat := by
  have hcuts : ev.CutsOut budget context location closing s text needle q ↔
      Library.substring text (q.toInt - 1) (some (Int32.ofInt needle.length).toInt) = needle := by
    rw [CutsOut, call_len]
    simp only [Outcome.done.injEq, and_true, exists_eq_left']
    rw [Library.int32, call_mid]
    simp only [Outcome.done.injEq, Value.string.injEq, and_true]
  rw [hcuts, Library.substring, Option.map_some]
  refine ⟨Text.occursAt_of_slice, fun h => ?_⟩
  have hlength := h.length_le hneedle
  have hcount : (Int32.ofInt needle.length).toInt = needle.length :=
    Int32.toInt_ofInt_of_le (by omega) (by omega)
  rw [hcount, Int.toNat_natCast]
  exact Text.occursAt_iff_slice.1 h

end Evaluator

/-! ## Least positions -/

theorem position_ne_zero {start r : Int32} (hstart : 1 ≤ start) (h : start ≤ r) : r ≠ 0 := by
  rintro rfl
  have hzero := Int.le_trans (Int32.le_iff_toInt_le.1 hstart) (Int32.le_iff_toInt_le.1 h)
  exact absurd hzero (by decide)

/-- What a search gives, counted from one, is a position of its own or zero for nothing found. -/
theorem Library.find_add_one {start : Int32} (hstart : 1 ≤ start) (htext : text.length < 2147483648)
    (hneedle : needle ≠ "") :
    ∃ r : Int32, find text needle (start.toInt - 1) + 1 = r.toInt ∧
      ((r = 0 ∧ Text.findFrom text needle (start.toInt - 1).toNat = none) ∨
        (start ≤ r ∧
          Text.findFrom text needle (start.toInt - 1).toNat = some (r.toInt - 1).toNat)) := by
  have hone : 1 ≤ start.toInt := Int32.le_iff_toInt_le.1 hstart
  rw [find]
  cases hfind : Text.findFrom text needle (start.toInt - 1).toNat with
  | none => exact ⟨0, rfl, .inl ⟨rfl, rfl⟩⟩
  | some i =>
    obtain ⟨hle, hi, -⟩ := (Text.findFrom_eq_some_iff hneedle).1 hfind
    have hlength := hi.length_le hneedle
    have hpos : 0 < needle.length :=
      Nat.pos_of_ne_zero fun h => hneedle (String.length_eq_zero_iff.1 h)
    have hr : (Int32.ofInt (i + 1)).toInt = i + 1 :=
      Int32.toInt_ofInt_of_le (by omega) (by omega)
    refine ⟨Int32.ofInt (i + 1), hr.symm, .inr ⟨?_, ?_⟩⟩
    · rw [Int32.le_iff_toInt_le, hr]
      omega
    · rw [hr, Int.add_sub_cancel, Int.toNat_natCast]

theorem Text.firstMatch_iff_findFrom (hneedle : needle ≠ "") :
    FirstMatch (bytes needle) (bytes (slice text start none)) k ↔
      ∃ i, findFrom text needle start = some i ∧
        k = (bytes (slice text start (some (i - start)))).length := by
  have hnil : needle.toList ≠ [] := fun h => hneedle (String.toList_eq_nil_iff.1 h)
  simp only [bytes_eq, slice, String.toList_ofList, length_encode]
  rw [firstMatch_iff_findIn hnil, findFrom_eq_findIn hneedle]

/-- Looking for a text from a position on gives the first position at which it can be cut out again,
and zero if there is none. The bytes in front of the first match of its bytes are those of the
characters that were passed over. The method, which counts from zero, finds the same place. -/
theorem instr_least (ev : Evaluator) (budget : Nat) (context : Option AssocRef)
    (location closing : Location) (s : Session) {start : Int32} {text needle : String}
    (hstart : 1 ≤ start) (htext : text.length < 2147483648) (hneedle : needle ≠ "") :
    ∃ (r : Int32) (method : Callable),
      ev.call budget (.ofBuiltin .instr) [.integer start, .string text, .string needle] context
          location closing s = .done (.integer r) s ∧
        (r = 0 ↔
          ∀ q, start ≤ q → ¬ ev.CutsOut budget context location closing s text needle q) ∧
        (r ≠ 0 →
          start ≤ r ∧ ev.CutsOut budget context location closing s text needle r ∧
            ∀ q, start ≤ q → q < r →
              ¬ ev.CutsOut budget context location closing s text needle q) ∧
        (∀ k,
          Text.FirstMatch (Text.bytes needle)
              (Text.bytes (Text.slice text (start.toInt - 1).toNat none)) k ↔
            r ≠ 0 ∧
              k = (Text.bytes (Text.slice text (start.toInt - 1).toNat
                (some (r.toInt - start.toInt).toNat))).length) ∧
        (Value.string text).method? "instr" = some method ∧
        ev.call budget method [.integer (start - 1), .string needle] context location closing s =
          .done (.integer (r - 1)) s := by
  have hone : 1 ≤ start.toInt := Int32.le_iff_toInt_le.1 hstart
  have hcuts := ev.cutsOut_iff budget context location closing s htext hneedle
  have horder {q : Int32} (hq : start ≤ q) :
      (start.toInt - 1).toNat ≤ (q.toInt - 1).toNat ∧ 1 ≤ q.toInt := by
    have := Int32.le_iff_toInt_le.1 hq
    omega
  obtain ⟨r, hr, hfound⟩ := Library.find_add_one hstart htext hneedle
  have hprevious : Int32.ofInt (Library.find text needle (start.toInt - 1)) = r - 1 := by
    rw [show Library.find text needle (start.toInt - 1) = r.toInt - 1 by omega, Int32.ofInt_sub,
      Int32.ofInt_toInt]
    rfl
  refine ⟨r, .ofMethod (.string .instr) (.boxed (.string text)), ?_, ?_, ?_, ?_, rfl, ?_⟩
  · rw [ev.call_instr budget context location closing s hstart text hneedle, hr, Library.int32,
      Int32.ofInt_toInt]
  · obtain ⟨rfl, hnone⟩ | ⟨hle, hsome⟩ := hfound
    · refine iff_of_true rfl fun q hq => ?_
      rw [hcuts]
      exact (Text.findFrom_eq_none_iff hneedle).1 hnone _ (horder hq).1
    · refine iff_of_false (position_ne_zero hstart hle) fun hnowhere => ?_
      exact hnowhere r hle ((hcuts r).2 ((Text.findFrom_eq_some_iff hneedle).1 hsome).2.1)
  · intro hne
    obtain ⟨rfl, -⟩ | ⟨hle, hsome⟩ := hfound
    · exact absurd rfl hne
    · obtain ⟨-, hhere, hfirst⟩ := (Text.findFrom_eq_some_iff hneedle).1 hsome
      refine ⟨hle, (hcuts r).2 hhere, fun q hq hlt => ?_⟩
      have hlt := Int32.lt_iff_toInt_lt.1 hlt
      have hq := horder hq
      rw [hcuts]
      exact hfirst _ hq.1 (by omega)
  · intro k
    rw [Text.firstMatch_iff_findFrom hneedle]
    obtain ⟨rfl, hnone⟩ | ⟨hle, hsome⟩ := hfound
    · rw [hnone]
      exact ⟨fun ⟨_, h, _⟩ => (by cases h), fun h => absurd rfl h.1⟩
    · have hcount : (r.toInt - 1).toNat - (start.toInt - 1).toNat =
          (r.toInt - start.toInt).toNat := by omega
      rw [hsome]
      simp only [Option.some.injEq, exists_eq_left', hcount, ne_eq, position_ne_zero hstart hle,
        not_false_eq_true, true_and]
  · rw [ev.call_instr_method budget context location closing s hstart, Library.int32, hprevious]

/-- The second occurrence is found behind the first one, two characters and six bytes further on. -/
theorem instr_least_of_wide_characters :
    (Evaluator.ofBudget 1).CutsOut 1 none .builtin .builtin (.new .standard) "日本語日本" "日本" 4 ∧
      (∀ q : Int32, 2 ≤ q → q < 4 →
        ¬ (Evaluator.ofBudget 1).CutsOut 1 none .builtin .builtin (.new .standard) "日本語日本" "日本"
          q) ∧
      Text.FirstMatch (Text.bytes "日本") (Text.bytes "本語日本") 6 := by
  obtain ⟨r, method, hcall, -, hleast, hbytes, -, -⟩ :=
    instr_least (.ofBudget 1) 1 none .builtin .builtin (.new .standard)
      (by decide : (1 : Int32) ≤ 2) (by decide : "日本語日本".length < 2147483648)
      (by decide : "日本" ≠ "")
  have hfour := Evaluator.call_instr (.ofBudget 1) 1 none .builtin .builtin (.new .standard)
    (by decide : (1 : Int32) ≤ 2) "日本語日本" (by decide : "日本" ≠ "")
  rw [hcall] at hfour
  injection hfour with hvalue
  injection hvalue with hr
  obtain rfl : r = 4 := hr.trans (by decide)
  obtain ⟨-, hhere, hfirst⟩ := hleast (by decide)
  exact ⟨hhere, hfirst, (hbytes 6).2 ⟨by decide, by decide⟩⟩

end BrightScript
