import BrightScript.Proofs.Parameters

/-!
# Which signature a call takes

A function with several signatures takes the first one that accepts the arguments. `Accepts` says
what that means position by position, and `Converts` what the function is then given. The list of
mismatches is empty just for the signatures that accept. So a call either finds the first accepting
signature, or all signatures have something to report; it then fails before anything of the function
runs, and no signature is without a line of its own in the report.
-/

namespace BrightScript

variable {args : List Value} {s : Signature}

namespace Signature

/-- A signature accepts arguments: there are enough of them, not too many, and each one in front of
a parameter can be turned into its kind. -/
structure Accepts (s : Signature) (args : List Value) : Prop where
  enough : s.requiredCount ≤ args.length
  room : s.variadic = true ∨ args.length ≤ s.arguments.length
  fits : ∀ (j : Nat) (p : Argument) (v : Value), s.arguments[j]? = some p → args[j]? = some v →
    (v.coerce? p.kind).isSome = true

/-- The arguments that a function is given: those in front of a parameter in its kind, and the
others as they are. -/
structure Converts (s : Signature) (args converted : List Value) : Prop where
  length : converted.length = args.length
  declared : ∀ (j : Nat) (p : Argument) (v : Value), s.arguments[j]? = some p →
    args[j]? = some v → converted[j]? = v.coerce? p.kind
  beyond : ∀ (j : Nat) (v : Value), s.arguments[j]? = none → args[j]? = some v →
    converted[j]? = some v

/-- The parameters whose arguments cannot be turned into their kind. -/
def unfit (parameters : List Argument) (args : List Value) : List (Argument × Value) :=
  (parameters.zip args).filter fun q => (q.2.coerce? q.1.kind).isNone

/-! ## Mismatches -/

theorem unfit_eq_nil_iff {parameters : List Argument} :
    unfit parameters args = [] ↔ ∀ (j : Nat) (p : Argument) (v : Value),
      parameters[j]? = some p → args[j]? = some v → (v.coerce? p.kind).isSome = true := by
  unfold unfit
  rw [List.filter_eq_nil_iff]
  constructor
  · intro h j p v hp hv
    have hmem : (p, v) ∈ parameters.zip args :=
      List.mem_of_getElem? (List.getElem?_zip_eq_some.2 ⟨hp, hv⟩)
    simpa [Option.isSome_iff_ne_none] using h (p, v) hmem
  · rintro h ⟨p, v⟩ hmem
    obtain ⟨j, hj⟩ := List.mem_iff_getElem?.1 hmem
    obtain ⟨hp, hv⟩ := List.getElem?_zip_eq_some.1 hj
    simp [Option.isNone_iff_eq_none, Option.isSome_iff_ne_none.1 (h j p v hp hv)]

theorem coerceAll_mismatches (parameters : List Argument) (args : List Value) :
    (coerceAll parameters args).1 =
      (unfit parameters args).map fun q => .argument q.1.name q.1.kind q.2.kind := by
  induction parameters generalizing args with
  | nil => cases args <;> rfl
  | cons p rest ih =>
    cases args with
    | nil => rfl
    | cons v more =>
      rw [coerceAll]
      cases h : v.coerce? p.kind with
      | none | some => simp [unfit, h, ih]

/-- All that is wrong with some arguments: at most one thing about their number, and one thing for
each argument that does not fit. -/
theorem mismatches_eq (s : Signature) (args : List Value) :
    s.mismatches args = s.countMismatch args.length ++
      (unfit s.arguments args).map fun q => .argument q.1.name q.1.kind q.2.kind := by
  rw [mismatches, coerceAll_mismatches]

theorem countMismatch_eq_nil_iff {count : Nat} :
    s.countMismatch count = [] ↔
      s.requiredCount ≤ count ∧ (s.variadic = true ∨ count ≤ s.arguments.length) := by
  unfold countMismatch
  by_cases hfew : count < s.requiredCount
  · simp [hfew, Nat.not_le_of_lt hfew]
  · cases hvariadic : s.variadic with
    | true => simpa [hfew] using Nat.le_of_not_lt hfew
    | false =>
      by_cases hmany : s.arguments.length < count
      · simp [hfew, hmany]
      · simp only [hfew, hmany, if_false, Bool.not_false, Bool.true_and, decide_false,
          Bool.false_eq_true, false_or, true_iff]
        omega

theorem mismatches_eq_nil_iff : s.mismatches args = [] ↔ s.Accepts args := by
  rw [mismatches_eq, List.append_eq_nil_iff, countMismatch_eq_nil_iff, List.map_eq_nil_iff,
    unfit_eq_nil_iff]
  constructor
  · rintro ⟨⟨henough, hroom⟩, hfits⟩
    exact ⟨henough, hroom, hfits⟩
  · intro h
    exact ⟨⟨h.enough, h.room⟩, h.fits⟩

/-! ## Conversion -/

theorem coerceAll_beyond {parameters : List Argument} {j : Nat} {v : Value}
    (hp : parameters[j]? = none) (hv : args[j]? = some v) :
    (coerceAll parameters args).2[j]? = some v := by
  induction parameters generalizing args j with
  | nil => cases args <;> exact hv
  | cons p rest ih =>
    cases args with
    | nil => cases hv
    | cons a more =>
      cases j with
      | zero => cases hp
      | succ j =>
        have hrest : (coerceAll rest more).2[j]? = some v := ih hp hv
        rw [coerceAll]
        cases a.coerce? p.kind <;> simpa using hrest

theorem converts_coerceAll (h : s.Accepts args) :
    s.Converts args (coerceAll s.arguments args).2 := by
  have hright : (coerceAll s.arguments args).1 = [] := by
    rw [coerceAll_mismatches, unfit_eq_nil_iff.2 h.fits, List.map_nil]
  refine ⟨length_coerceAll _ _, ?_, ?_⟩
  · intro j p v hp hv
    obtain ⟨w, hw, hj⟩ := coerceAll_getElem? hright hp hv
    rw [hj, hw]
  · intro j v hp hv
    exact coerceAll_beyond hp hv

theorem Converts.unique {converted converted' : List Value} (h : s.Converts args converted)
    (h' : s.Converts args converted') : converted = converted' := by
  apply List.ext_getElem?
  intro j
  cases hv : args[j]? with
  | none =>
    have hj : args.length ≤ j := List.getElem?_eq_none_iff.1 hv
    rw [List.getElem?_eq_none (by rw [h.length]; exact hj),
      List.getElem?_eq_none (by rw [h'.length]; exact hj)]
  | some v =>
    cases hp : s.arguments[j]? with
    | none => rw [h.beyond j v hp hv, h'.beyond j v hp hv]
    | some p => rw [h.declared j p v hp hv, h'.declared j p v hp hv]

theorem satisfy?_eq_some_iff {converted : List Value} :
    s.satisfy? args = some converted ↔ s.Accepts args ∧ s.Converts args converted := by
  unfold satisfy?
  rw [Option.ite_none_right_eq_some, List.isEmpty_iff, mismatches_eq_nil_iff]
  constructor
  · rintro ⟨haccepts, hconverted⟩
    cases hconverted
    exact ⟨haccepts, converts_coerceAll haccepts⟩
  · rintro ⟨haccepts, hconverts⟩
    exact ⟨haccepts, congrArg some ((converts_coerceAll haccepts).unique hconverts)⟩

theorem satisfy?_eq_none_iff : s.satisfy? args = none ↔ ¬ s.Accepts args := by
  constructor
  · intro hnone haccepts
    rw [satisfy?_eq_some_iff.2 ⟨haccepts, converts_coerceAll haccepts⟩] at hnone
    cases hnone
  · intro hnot
    cases h : s.satisfy? args with
    | none => rfl
    | some converted => exact absurd (satisfy?_eq_some_iff.1 h).1 hnot

end Signature

/-! ## The first signature that accepts -/

theorem firstSatisfied_eq_none_iff {index : Nat} {overloads : List Signature} :
    firstSatisfied args index overloads = none ↔ ∀ s ∈ overloads, ¬ s.Accepts args := by
  induction overloads generalizing index with
  | nil => simp [firstSatisfied]
  | cons s rest ih =>
    rw [firstSatisfied, List.forall_mem_cons]
    cases h : s.satisfy? args with
    | none => simp [ih, Signature.satisfy?_eq_none_iff.1 h]
    | some converted => simp [(Signature.satisfy?_eq_some_iff.1 h).1]

-- Signatures are counted from `index`, so the place of the one found is said relative to it.
theorem firstSatisfied_eq_some_iff {index : Nat} {overloads : List Signature} {found : Satisfied} :
    firstSatisfied args index overloads = some found ↔
      ∃ i, found.index = index + i ∧ overloads[i]? = some found.signature ∧
        found.signature.Accepts args ∧
        (∀ j < i, ∀ s, overloads[j]? = some s → ¬ s.Accepts args) ∧
        found.signature.Converts args found.args := by
  induction overloads generalizing index with
  | nil => simp [firstSatisfied]
  | cons s rest ih =>
    rw [firstSatisfied]
    cases h : s.satisfy? args with
    | some converted =>
      obtain ⟨haccepts, hconverts⟩ := Signature.satisfy?_eq_some_iff.1 h
      constructor
      · intro hfound
        cases hfound
        exact ⟨0, rfl, rfl, haccepts, fun j hj => absurd hj (Nat.not_lt_zero j), hconverts⟩
      · rintro ⟨i, hindex, hsignature, -, hbefore, hargs⟩
        cases i with
        | succ i => exact absurd haccepts (hbefore 0 (Nat.succ_pos i) s rfl)
        | zero =>
          obtain ⟨place, signature, args'⟩ := found
          cases hsignature
          cases hindex
          rw [hconverts.unique hargs]
    | none =>
      have hnot := Signature.satisfy?_eq_none_iff.1 h
      dsimp only
      rw [ih]
      constructor
      · rintro ⟨i, hindex, hsignature, haccepts, hbefore, hargs⟩
        refine ⟨i + 1, by omega, hsignature, haccepts, ?_, hargs⟩
        intro j hj s' hs'
        cases j with
        | zero => cases hs'; exact hnot
        | succ j => exact hbefore j (by omega) s' hs'
      · rintro ⟨i, hindex, hsignature, haccepts, hbefore, hargs⟩
        cases i with
        | zero => cases hsignature; exact absurd haccepts hnot
        | succ i =>
          refine ⟨i, by omega, hsignature, haccepts, ?_, hargs⟩
          intro j hj s' hs'
          exact hbefore (j + 1) (by omega) s' hs'

/-! ## The report -/

/-- The lines about a signature: its headline, and a line for each mismatch. -/
def Signature.reportLines (s : Signature) (name : String) (args : List Value) : List String :=
  ("    " ++ s.headline name) ::
    (s.mismatches args).map fun m => "        " ++ s.mismatchText name m

/-- An error reports on signatures in turn: a heading, and a block of lines for each of them. -/
structure ScriptError.Reports (e : ScriptError) (heading : String) (blocks : List (List String)) :
    Prop where
  number : e.number? = some 24
  message : e.message = "Type Mismatch.: " ++
    "\n".intercalate (heading :: blocks.map fun lines => "\n".intercalate lines)

theorem ScriptError.noOverload_reports (name : String) (overloads : List Signature)
    (args : List Value) (location : Location) :
    (noOverload name overloads args location).Reports
      ("Provided arguments don't match " ++
        if overloads.length = 1 then s!"{name}'s signature." else s!"any of {name}'s signatures.")
      (overloads.map fun s => s.reportLines name args) := by
  refine ⟨rfl, ?_⟩
  rw [List.map_map]
  rfl

/-- For all signatures and arguments: the signature that is found is the first one that accepts, and
the arguments are converted by it. None is found just if each has a mismatch. A function of any name
that has these signatures runs what was found. If nothing was then it only raises an error, whatever
it would run, and so does a call, whatever runs it: the number of the error is 24, and it reports
for each signature on all mismatches, of which there is at least one. -/
theorem overload_resolution (overloads : List Signature) (args : List Value) :
    (∀ found : Satisfied, firstSatisfied args 0 overloads = some found ↔
      overloads[found.index]? = some found.signature ∧ found.signature.Accepts args ∧
      (∀ j < found.index, ∀ s, overloads[j]? = some s → ¬ s.Accepts args) ∧
      found.signature.Converts args found.args) ∧
    (firstSatisfied args 0 overloads = none ↔ ∀ s ∈ overloads, s.mismatches args ≠ []) ∧
    (∀ s : Signature, s.mismatches args = s.countMismatch args.length ++
      (Signature.unfit s.arguments args).map fun q => .argument q.1.name q.1.kind q.2.kind) ∧
    (∀ (name : String) (closing : Location) (run : Satisfied → Run Value) (found : Satisfied),
      firstSatisfied args 0 overloads = some found →
        Run.dispatch name overloads args closing run = run found) ∧
    (∀ (name : String) (closing : Location), firstSatisfied args 0 overloads = none →
      ∃ e heading blocks, e.location = closing ∧
        (∀ (run : Satisfied → Run Value) (s : Session),
          Run.dispatch name overloads args closing run s =
            .exit (.error (s.traced e)) (s.note (s.traced e))) ∧
        (∀ (c : Callable) (invoke : Target → List Value → Run Value) (context : Option AssocRef)
            (call : Location) (s : Session), c.name = name → c.overloads = overloads →
          Run.call invoke c args context call closing s =
            .exit (.error (s.traced e)) (s.note (s.traced e))) ∧
        e.Reports heading blocks ∧ blocks.length = overloads.length ∧
        ∀ (i : Nat) (s : Signature), overloads[i]? = some s → ∃ lines,
          blocks[i]? = some (("    " ++ s.headline name) :: lines) ∧ lines ≠ [] ∧
          lines = (s.mismatches args).map fun m => "        " ++ s.mismatchText name m) := by
  have hnone : firstSatisfied args 0 overloads = none ↔
      ∀ s ∈ overloads, s.mismatches args ≠ [] := by
    rw [firstSatisfied_eq_none_iff]
    simp only [ne_eq, Signature.mismatches_eq_nil_iff]
  refine ⟨?_, hnone, fun s => s.mismatches_eq args, ?_, ?_⟩
  · intro found
    rw [firstSatisfied_eq_some_iff]
    constructor
    · rintro ⟨i, hindex, hfound⟩
      rw [Nat.zero_add] at hindex
      rw [hindex]
      exact hfound
    · intro hfound
      exact ⟨found.index, (Nat.zero_add _).symm, hfound⟩
  · intro name closing run found hfound
    rw [Run.dispatch, hfound]
  · intro name closing hfirst
    have hraise (run : Satisfied → Run Value) : Run.dispatch name overloads args closing run =
        Run.raise (.noOverload name overloads args closing) := by
      rw [Run.dispatch, hfirst]
    refine ⟨.noOverload name overloads args closing, _, _, rfl, fun run s => ?_, ?_,
      ScriptError.noOverload_reports _ _ _ _, List.length_map _, ?_⟩
    · exact congrFun (hraise run) s
    · rintro c invoke context call s rfl rfl
      exact congrFun (hraise _) s
    · intro i s hs
      have hmismatch := hnone.1 hfirst s (List.mem_of_getElem? hs)
      refine ⟨_, by rw [List.getElem?_map, hs]; rfl, ?_, rfl⟩
      rw [ne_eq, List.map_eq_nil_iff]
      exact hmismatch

/-- The method `mid` of a string, which has two signatures. -/
def midMethod : Callable :=
  .ofMethod (.string .mid) (.boxed (.string "abc"))

/-- Two arguments do not fit the first signature of `mid`, and are converted by the second one. No
arguments fit neither. -/
theorem overload_resolution_of_midMethod :
    (∃ first second : Signature, midMethod.overloads = [first, second] ∧
      ¬ first.Accepts [.integer 2, .longInteger 1] ∧
      second.Converts [.integer 2, .longInteger 1] [.integer 2, .integer 1]) ∧
    ∃ e heading blocks, (∀ s : Session,
        (Evaluator.ofBudget 0).call 0 midMethod [] none .builtin .builtin s =
          .exit (.error (s.traced e)) (s.note (s.traced e))) ∧
      e.Reports heading blocks ∧ blocks.length = 2 := by
  constructor
  · obtain ⟨hfirst, -⟩ := overload_resolution midMethod.overloads [.integer 2, .longInteger 1]
    obtain ⟨-, -, hbefore, hconverts⟩ := (hfirst ⟨1, _, [.integer 2, .integer 1]⟩).1 rfl
    exact ⟨_, _, rfl, hbefore 0 Nat.one_pos _ rfl, hconverts⟩
  · obtain ⟨-, -, -, -, hraise⟩ := overload_resolution midMethod.overloads []
    obtain ⟨e, heading, blocks, -, -, hcall, hreports, hlength, -⟩ :=
      hraise midMethod.name .builtin rfl
    exact ⟨e, heading, blocks, fun s => hcall midMethod _ none .builtin s rfl rfl, hreports,
      hlength⟩

end BrightScript
