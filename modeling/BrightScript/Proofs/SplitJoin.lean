import BrightScript.Proofs.LibraryDefaults

/-!
# Splitting and joining

Splitting a text at a separator and joining the pieces with it gives the text back, and no piece
contains the separator. Both follow the scan of `Text.cut`: what it has passed over is in the pieces
(`Text.intercalate_cut`), and no occurrence starts in the piece it is at (`Text.Unmatched`).
-/

namespace BrightScript

namespace Text

section Cut

variable {separator piece rest p : List Char} {skip : Nat}

theorem cut_ne_nil (separator rest : List Char) (skip : Nat) (piece : List Char) :
    cut separator rest skip piece ≠ [] := by
  fun_induction cut separator rest skip piece with
  | case1 => exact List.cons_ne_nil _ _
  | case2 c rest skip piece ih => exact ih
  | case3 => exact List.cons_ne_nil _ _
  | case4 c rest piece hhere ih => exact ih

theorem intercalate_cut (hseparator : separator ≠ []) (rest : List Char) (skip : Nat)
    (piece : List Char) :
    separator.intercalate (cut separator rest skip piece) = piece.reverse ++ rest.drop skip := by
  fun_induction cut separator rest skip piece with
  | case1 skip piece => simp
  | case2 c rest skip piece ih => rw [ih, List.drop_succ_cons]
  | case3 c rest piece hhere ih =>
    -- The first character of the separator is the one at hand, the others are skipped.
    obtain ⟨d, others, rfl⟩ := List.exists_cons_of_ne_nil hseparator
    obtain ⟨more, hmore⟩ := List.isPrefixOf_iff_prefix.1 hhere
    obtain ⟨rfl, rfl⟩ := List.cons_eq_cons.1 hmore
    rw [List.intercalate_cons_of_ne_nil (cut_ne_nil _ _ _ _), ih]
    simp
  | case4 c rest piece hhere ih => simp [ih]

/-- No occurrence of the separator starts in the current piece, which is given in reverse. -/
def Unmatched (separator piece rest : List Char) : Prop :=
  ∀ j < piece.length, ¬ separator <+: (piece.reverse ++ rest).drop j

theorem unmatched_nil (separator rest : List Char) : Unmatched separator [] rest :=
  fun j hj => absurd hj (Nat.not_lt_zero j)

theorem Unmatched.cons {c : Char} (h : Unmatched separator piece (c :: rest))
    (hhere : ¬ separator <+: c :: rest) : Unmatched separator (c :: piece) rest := by
  intro j hj
  rw [List.reverse_cons, List.append_assoc, List.singleton_append]
  obtain hlt | rfl := Nat.lt_succ_iff_lt_or_eq.1 hj
  · exact h j hlt
  · rwa [List.drop_left' List.length_reverse]

theorem Unmatched.not_infix (h : Unmatched separator piece rest) (hseparator : separator ≠ []) :
    ¬ separator <:+: piece.reverse := by
  rintro ⟨before, after, heq⟩
  refine h before.length ?_ ⟨after ++ rest, ?_⟩
  · have hpos := List.length_pos_iff.2 hseparator
    have hlength := congrArg List.length heq
    rw [List.length_append, List.length_append, List.length_reverse] at hlength
    omega
  · rw [← heq]
    simp

theorem not_infix_of_mem_cut (hseparator : separator ≠ [])
    (h : Unmatched separator piece (rest.drop skip)) (hp : p ∈ cut separator rest skip piece) :
    ¬ separator <:+: p := by
  fun_induction cut separator rest skip piece with
  | case1 skip piece =>
    obtain rfl := List.mem_singleton.1 hp
    exact h.not_infix hseparator
  | case2 c rest skip piece ih => exact ih h hp
  | case3 c rest piece hhere ih =>
    obtain rfl | hp := List.mem_cons.1 hp
    · exact h.not_infix hseparator
    · exact ih (unmatched_nil _ _) hp
  | case4 c rest piece hhere ih =>
    exact ih (h.cons fun hfound => hhere (List.isPrefixOf_iff_prefix.2 hfound)) hp

end Cut

theorem intercalate_singletons (rest : List Char) :
    [].intercalate (rest.map fun c => [c]) = rest := by
  induction rest with
  | nil => rfl
  | cons c rest ih => cases rest <;> simp_all

theorem intercalate_splitOn (text separator : String) :
    separator.intercalate (splitOn text separator) = text := by
  rw [← String.toList_inj, String.toList_intercalate, splitOn]
  split
  · next hempty =>
    rw [List.isEmpty_iff.1 hempty]
    simpa [Function.comp_def] using intercalate_singletons text.toList
  · next hseparator =>
    simpa [Function.comp_def] using intercalate_cut (by simpa using hseparator) text.toList 0 []

theorem not_infix_of_mem_splitOn {text separator part : String} (hseparator : separator ≠ "")
    (h : part ∈ splitOn text separator) : ¬ separator.toList <:+: part.toList := by
  rw [splitOn, if_neg (by simpa using hseparator)] at h
  obtain ⟨p, hp, rfl⟩ := List.mem_map.1 h
  rw [String.toList_ofList]
  exact not_infix_of_mem_cut (by simpa using hseparator) (unmatched_nil _ _) hp

end Text

theorem Library.join_strings (parts : List String) (separator : String) :
    join (.ofList (parts.map .string)) separator = separator.intercalate parts := by
  have hstrings : strings? (parts.map .string) = some parts := by
    induction parts with
    | nil => rfl
    | cons part parts ih =>
      rw [strings?] at ih ⊢
      rw [List.map_cons, List.mapM_cons, ih]
      rfl
  rw [join, ArrayObject.toList, ArrayObject.ofList, hstrings]

namespace Evaluator

variable (ev : Evaluator) (budget : Nat) (context : Option AssocRef) (location closing : Location)
variable (s : Session)

theorem call_split (text separator : String) :
    ∃ r t, ev.call budget (.ofMethod (.string .split) (.boxed (.string text))) [.string separator]
        context location closing s = .done (.array r) t ∧
      t.heap.array r = .ofList ((Text.splitOn text separator).map .string) :=
  ⟨_, _, ev.call_of_invoke budget rfl rfl rfl context location closing, s.heap.array_newArray _⟩

theorem call_join (r : ArrayRef) (separator : String) :
    ev.call budget (.ofMethod (.array .join) (.array r)) [.string separator] context location
        closing s = .done (.string (Library.join (s.heap.array r) separator)) s :=
  ev.call_of_invoke budget rfl rfl rfl context location closing

end Evaluator

/-- The pieces of a text, joined with the separator they were split at, are the text again. A
separator that is not empty is in none of them. -/
theorem split_joins_back (ev : Evaluator) (budget : Nat) (context : Option AssocRef)
    (location closing : Location) (s : Session) (text separator : String) :
    ∃ (split join : Callable) (r : ArrayRef) (t : Session) (parts : List String),
      (Value.string text).method? "split" = some split ∧
        ev.call budget split [.string separator] context location closing s = .done (.array r) t ∧
        (t.heap.array r).toList = parts.map .string ∧
        (separator ≠ "" → ∀ part ∈ parts, ¬ separator.toList <:+: part.toList) ∧
        (Value.array r).method? "join" = some join ∧
        ∀ (context : Option AssocRef) (location closing : Location),
          ev.call budget join [.string separator] context location closing t =
            .done (.string text) t := by
  obtain ⟨r, t, hsplit, hparts⟩ := ev.call_split budget context location closing s text separator
  refine ⟨_, .ofMethod (.array .join) (.array r), r, t, Text.splitOn text separator, rfl, hsplit,
    by rw [hparts]; rfl, fun hseparator part => Text.not_infix_of_mem_splitOn hseparator, rfl, ?_⟩
  intro context location closing
  rw [ev.call_join budget context location closing, hparts, Library.join_strings,
    Text.intercalate_splitOn]

example : Text.splitOn "aaa" "aa" = ["", "a"] := by decide

end BrightScript
