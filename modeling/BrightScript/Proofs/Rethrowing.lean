import BrightScript.Proofs.CaughtFields
import BrightScript.Proofs.DeclarationOrder

/-!
# Errors that are thrown again

The array that a `catch` binds can be thrown as it is. The next `try` around catches it and binds an
array of its own, and so on through any number of levels (`Evaluator.Recaught`). On the way an array
is turned into an error and the error into an array again. Every error that leaves a block carries
only fields that an error can have, so the first array can be thrown; and a pass from one array to
the next keeps the number, the backtrace, the further fields and a text that is not empty
(`AssocArray.Rethrows`). Such passes can be put together.
-/

namespace BrightScript

variable {e : ScriptError} {key : String}

/-! ## Errors that leave a block -/

/-- Runs are left by errors that rules raise. -/
def Contract.raising : Contract fun _ => True where
  inv _ := True
  keep _ _ _ := True
  left _ _ signal _ := ∀ e, signal = .error e → ∀ member ∈ e.extra, ScriptError.IsCarried member
  admissible := .trivial
  holds := fun {s} _ => .trivial s
  refl := trivial
  trans _ _ := trivial
  trans_left _ h := h
  keep_statement _ := trivial
  keep_body _ := trivial
  left_statement h := h
  left_body h := h
  keep_of_left _ _ := trivial
  update _ _ := ⟨trivial, trivial⟩
  serviced _ _ := ⟨trivial, trivial⟩
  raise he _ := ⟨trivial, fun _ h => by cases h; exact he.carried⟩
  stray _ _ _ := fun _ h => by cases h; exact fun _ hm => by cases hm
  leave h _ := fun e he => absurd he (h e)
  quit _ := fun _ h => by cases h
  left_serviced h _ := h
  crash _ _ _ := fun _ h => by cases h
  tried _ := trivial
  untried _ _ := trivial
  keep_untried _ _ := trivial
  keep_caught _ _ := trivial
  left_untried _ _ h := h
  unhelped _ := ⟨trivial, trivial⟩
  left_unhelped h := h
  rewound _ := trivial
  left_rewound h := h
  entered _ _ := trivial
  returnedTo _ _ _ := ⟨trivial, trivial⟩
  left_returnedTo _ _ _ h := ⟨trivial, h⟩

theorem Evaluator.carried_of_exit {n : Nat} {block : Block} {s t : Session}
    (h : (ofBudget n).executeBlock block s = .exit (.error e) t) :
    ∀ member ∈ e.extra, ScriptError.IsCarried member := by
  have hends := (Contract.raising.simulation.executeBlock
    (Contract.raising.simulation.ofBudget n) block s trivial).2
  rw [h] at hends
  exact hends.2.2 e rfl

/-! ## Arrays that can be thrown again -/

namespace AssocArray

/-- An array with the fields of an error. -/
structure OfError (a : AssocArray) : Prop where
  number : ∃ n, a.get? "number" = some (.integer n)
  message : ∃ text, a.get? "message" = some (.string text)
  backtrace : ∃ r, a.get? "backtrace" = some (.array r)

theorem OfError.not_misthrown {a : AssocArray} (h : a.OfError) : ¬ a.Misthrown := by
  rintro (⟨v, hv, hmisfit⟩ | ⟨v, hv, -, hmisfit⟩ | ⟨v, hv, -, hmisfit⟩)
  · obtain ⟨r, hr⟩ := h.backtrace
    exact hmisfit r (Option.some.inj (hv.symm.trans hr))
  · obtain ⟨text, htext⟩ := h.message
    exact hmisfit text (Option.some.inj (hv.symm.trans htext))
  · obtain ⟨n, hn⟩ := h.number
    exact hmisfit n (Option.some.inj (hv.symm.trans hn))

/-- A field that is none of those that every error has. -/
theorem OfError.set {a : AssocArray} (h : a.OfError) {v : Value}
    (hv : ScriptError.IsCarried (key, v)) : (a.set key v true).OfError := by
  obtain ⟨hnumber, hmessage, hbacktrace⟩ := hv
  refine ⟨?_, ?_, ?_⟩
  · rw [get?_set, if_neg (show Text.fold key ≠ Text.fold "number" from hnumber)]
    exact h.number
  · rw [get?_set, if_neg (show Text.fold key ≠ Text.fold "message" from hmessage)]
    exact h.message
  · rw [get?_set]
    split
    · next hkey =>
      obtain ⟨r, hr⟩ := hbacktrace hkey
      exact ⟨r, congrArg some hr⟩
    · exact h.backtrace

theorem OfError.members (he : ∀ member ∈ e.extra, ScriptError.IsCarried member) (r : ArrayRef) :
    (e.members (.array r)).OfError := by
  have hkey : Text.fold "rethrow_backtrace" ≠ "number" ∧
      Text.fold "rethrow_backtrace" ≠ "message" := by decide
  have hmark : ScriptError.IsCarried ("rethrow_backtrace", .array r) :=
    ⟨hkey.1, hkey.2, fun _ => ⟨r, rfl⟩⟩
  have hstandard : (e.standard (.array r)).OfError := by
    obtain ⟨hmessage, hnumber, -⟩ := e.get?_standard (.array r)
    refine ⟨⟨_, hnumber⟩, ⟨_, hmessage⟩, r, ?_⟩
    simp only [ScriptError.standard, ofMembers, List.foldl_cons, List.foldl_nil, get?_set]
    rfl
  rw [ScriptError.members_eq]
  refine List.foldlRecOn e.extra _ hstandard fun a ha member hm => ?_
  unfold ScriptError.carry
  refine OfError.set ?_ (he member hm)
  split
  · split
    · exact ha.set hmark
    · exact ha
  · exact ha

/-- An array that is caught when another one is thrown, as it was caught, once or several times. -/
structure Rethrows (last first : AssocArray) : Prop where
  number : last.get? "number" = first.get? "number"
  text : ∀ text, first.get? "message" = some (.string text) → text ≠ "" →
    last.get? "message" = some (.string text)
  noText : first.get? "message" = some (.string "") → ∀ n, first.get? "number" = some (.integer n) →
    last.get? "message" = some (.string (Thrown.textOfNumber n))
  backtrace : ∃ r, first.get? "backtrace" = some (.array r) ∧
    last.get? "backtrace" = some (.array r)
  rethrown : last.get? "rethrown" = some (.boolean true)
  other : ∀ key, Text.fold key ∉ ["backtrace", "message", "number", "rethrown"] →
    Text.fold key ≠ "rethrow_backtrace" ∨ first.contains key = true → last.get? key = first.get? key

theorem Rethrows.ofError {last first : AssocArray} (h : last.Rethrows first)
    (hfirst : first.OfError) : last.OfError := by
  obtain ⟨n, hn⟩ := hfirst.number
  obtain ⟨text, htext⟩ := hfirst.message
  obtain ⟨r, -, hr⟩ := h.backtrace
  refine ⟨⟨n, h.number.trans hn⟩, ?_, ⟨r, hr⟩⟩
  by_cases hempty : text = ""
  · exact ⟨_, h.noText (hempty ▸ htext) n hn⟩
  · exact ⟨_, h.text text htext hempty⟩

theorem Rethrows.trans {last middle first : AssocArray} (h : last.Rethrows middle)
    (h' : middle.Rethrows first) : last.Rethrows first where
  number := h.number.trans h'.number
  text text htext hne := h.text text (h'.text text htext hne) hne
  noText hempty n hn := by
    -- The text of a number could be empty as well; then it is looked up a second time.
    have hmiddle := h'.noText hempty n hn
    have hnumber := h'.number.trans hn
    by_cases hagain : Thrown.textOfNumber n = ""
    · exact h.noText (hagain ▸ hmiddle) n hnumber
    · exact h.text _ hmiddle hagain
  backtrace := by
    obtain ⟨r, hfirst, hmiddle⟩ := h'.backtrace
    obtain ⟨r', hmiddle', hlast⟩ := h.backtrace
    cases hmiddle.symm.trans hmiddle'
    exact ⟨r, hfirst, hlast⟩
  rethrown := h.rethrown
  other key hkey hown := by
    have hmiddle := h'.other key hkey hown
    refine (h.other key hkey ?_).trans hmiddle
    rwa [contains_eq_isSome_get?, hmiddle, ← contains_eq_isSome_get?]

end AssocArray

/-! ## From one array to the next -/

namespace ScriptError

/-- A field of a caught error is one of the standard fields, the mark of an error that is thrown
again, or carried along. -/
theorem get?_foldl_carry {trace : Value} {extra : List (String × Value)} {a : AssocArray}
    {v : Value} (h : (extra.foldl (carry trace) a).get? key = some v) :
    a.get? key = some v ∨ Text.fold key = "rethrow_backtrace" ∨
      ∃ member ∈ extra, Text.fold member.1 = Text.fold key ∧ member.2 = v := by
  induction extra generalizing a with
  | nil => exact .inl h
  | cons member extra ih =>
    obtain hcarried | hmark | ⟨other, hmem, hother⟩ := ih h
    · unfold carry at hcarried
      rw [AssocArray.get?_set] at hcarried
      split at hcarried
      · next hkey =>
        exact .inr (.inr ⟨member, List.mem_cons_self, hkey, Option.some.inj hcarried⟩)
      · split at hcarried
        · split at hcarried
          · rw [AssocArray.get?_set] at hcarried
            split at hcarried
            · next hkey => exact .inr (.inl hkey.symm)
            · exact .inl hcarried
          · exact .inl hcarried
        · exact .inl hcarried
    · exact .inr (.inl hmark)
    · exact .inr (.inr ⟨other, List.mem_cons_of_mem _ hmem, hother⟩)

theorem get?_standard_other (e : ScriptError) (trace : Value)
    (hkey : Text.fold key ∉ ["backtrace", "message", "number", "rethrown"]) :
    (e.standard trace).get? key = none := by
  have hne {field : String}
      (hfield : Text.fold field ∈ ["backtrace", "message", "number", "rethrown"]) :
      Text.fold field ≠ Text.fold key := fun heq => hkey (heq ▸ hfield)
  simp only [standard, AssocArray.ofMembers, List.foldl_cons, List.foldl_nil, AssocArray.get?_set]
  rw [if_neg (hne (by decide)), if_neg (hne (by decide)), if_neg (hne (by decide)),
    if_neg (hne (by decide))]
  rfl

end ScriptError

/-- What a thrown array carries along are fields that it has. -/
theorem Thrown.mem_extra_ofEntries {entries : List Entry} {member : String × Value}
    (h : member ∈ (Thrown.ofEntries entries).extra)
    (hkey : Text.fold member.1 ∉ ["backtrace", "message", "number", "rethrown"]) :
    ∃ e ∈ entries, e.shown = member.1 ∧ e.value = member.2 := by
  refine Thrown.ofEntries_induction (I := fun t => member ∈ t.extra →
    ∃ e ∈ entries, e.shown = member.1 ∧ e.value = member.2) (fun _ _ hm => by cases hm) ?_ h
  intro t t' entry hentry ht hstep hmem
  -- Neither the backtrace nor the mark is one of the other fields.
  have hstandard : Text.fold "backtrace" ∈ ["backtrace", "message", "number", "rethrown"] ∧
      Text.fold "rethrown" ∈ ["backtrace", "message", "number", "rethrown"] := by decide
  obtain hmem | ⟨r, rfl⟩ | rfl | ⟨-, rfl⟩ := mem_extra_withMember hstep hmem
  · exact ht hmem
  · exact absurd hstandard.1 hkey
  · exact absurd hstandard.2 hkey
  · exact ⟨entry, hentry, rfl, rfl⟩

namespace AssocArray

/-- Apart from the standard fields and the mark, what is caught has no field that the thrown array
does not have. -/
theorem get?_members_eq_none {first : AssocArray} (hget : first.get? key = none)
    (hkey : Text.fold key ∉ ["backtrace", "message", "number", "rethrown"])
    (hmark : Text.fold key ≠ "rethrow_backtrace") (place : Location) (stack : List Frame)
    (trace : Value) :
    (((Thrown.ofEntries first.toList).toError place stack).members trace).get? key = none := by
  rw [Option.eq_none_iff_forall_ne_some]
  intro v hv
  rw [ScriptError.members_eq] at hv
  obtain hstandard | heq | ⟨member, hmem, hmemkey, hvalue⟩ := ScriptError.get?_foldl_carry hv
  · rw [ScriptError.get?_standard_other _ _ hkey] at hstandard
    cases hstandard
  · exact hmark heq
  · obtain ⟨e, he, hshown, hvalue'⟩ := Thrown.mem_extra_ofEntries hmem (hmemkey ▸ hkey)
    have hfound := first.get?_eq_some_iff.2 ⟨e, he, (congrArg Text.fold hshown).trans hmemkey, rfl⟩
    rw [hget] at hfound
    cases hfound

/-- An array that has the fields of an error is caught with these fields. -/
theorem rethrows_of_ofError {first : AssocArray} (h : first.OfError) (place : Location)
    (stack : List Frame) (trace : Value) :
    (((Thrown.ofEntries first.toList).toError place stack).members trace).Rethrows first := by
  let last := ((Thrown.ofEntries first.toList).toError place stack).members trace
  have catches : last.Catches first := catches_of_not_misthrown h.not_misthrown
  obtain ⟨n, hn⟩ := h.number
  obtain ⟨r, hr⟩ := h.backtrace
  have hbacktrace : first.contains "backtrace" = true := by
    rw [contains_eq_isSome_get?, hr]
    rfl
  refine ⟨(catches.number n hn).trans hn.symm, catches.text, ?_, ?_, ?_, ?_⟩
  · intro hempty n' hn'
    have hlacks : first.LacksText := by
      intro text htext
      cases htext.symm.trans hempty
      rfl
    by_cases hknown : ∃ f : Fault, f.number = n'
    · obtain ⟨f, rfl⟩ := hknown
      rw [Thrown.textOfNumber_number]
      exact catches.faultText hlacks f hn'
    · have hunknown : ∀ f : Fault, f.number ≠ n' := fun f hf => hknown ⟨f, hf⟩
      rw [Thrown.textOfNumber_of_unknown hunknown]
      exact catches.unknownText hlacks n' hn' hunknown
  · exact catches.backtrace hbacktrace
  · exact hbacktrace ▸ catches.rethrown
  · intro key hkey hown
    cases hget : first.get? key with
    | some v => exact catches.other key v hkey hget
    | none =>
      have hmark : Text.fold key ≠ "rethrow_backtrace" := by
        refine hown.resolve_right fun hcontains => ?_
        rw [contains_eq_isSome_get?, hget] at hcontains
        cases hcontains
      exact get?_members_eq_none hget hkey hmark place stack trace

end AssocArray

/-! ## Levels of `try` -/

namespace Evaluator

/-- A `try` whose block is left by an error binds its variable to an array with these fields. -/
def BindsError (n : Nat) (block : Block) (s : Session) (a : AssocArray) : Prop :=
  ∃ e t c w, (ofBudget n).executeBlock block (s.withTry true) = .exit (.error e) t ∧
    Run.caught e (t.withTry s.tryMode) = .done (.assoc c) w ∧ w.heap.assoc c = a

/-- An array was bound for an error at first, and each time it was thrown as it was the next `try`
around bound another one, through a number of levels. -/
inductive Recaught : (first : AssocArray) → (levels : Nat) → (last : AssocArray) → Prop
  | first {n : Nat} {block : Block} {s : Session} {a : AssocArray} :
      BindsError n block s a → Recaught a 0 a
  | again {n levels : Nat} {block : Block} {s u : Session} {r : AssocRef} {place : Location}
      {first a : AssocArray} : Recaught first levels (u.heap.assoc r) →
      Throws n block (s.withTry true) ⟨.assoc r, place, u⟩ → BindsError n block s a →
      Recaught first (levels + 1) a

variable {n levels : Nat} {block : Block} {s u : Session} {r : AssocRef} {place : Location}
  {first a : AssocArray}

theorem BindsError.exists_members (h : BindsError n block s a) :
    ∃ e t r, (ofBudget n).executeBlock block (s.withTry true) = .exit (.error e) t ∧
      a = e.members (.array r) := by
  obtain ⟨e, t, c, w, hexit, hcaught, rfl⟩ := h
  obtain ⟨r, c', w', hcaught', hmembers⟩ := Run.caught_apply e (t.withTry s.tryMode)
  cases hcaught.symm.trans hcaught'
  exact ⟨e, t, r, hexit, hmembers⟩

theorem BindsError.ofError (h : BindsError n block s a) : a.OfError := by
  obtain ⟨e, t, r, hexit, rfl⟩ := h.exists_members
  exact .members (carried_of_exit hexit) r

/-- What is bound for an array that is thrown. -/
theorem BindsError.rethrows (h : BindsError n block s a)
    (hthrows : Throws n block (s.withTry true) ⟨.assoc r, place, u⟩)
    (hfields : (u.heap.assoc r).OfError) : a.Rethrows (u.heap.assoc r) := by
  obtain ⟨e, t, trace, hexit, rfl⟩ := h.exists_members
  obtain ⟨t', hthrown⟩ := hthrows.exit rfl
  cases hexit.symm.trans hthrown
  exact AssocArray.rethrows_of_ofError hfields place u.stack _

/-- By induction on the levels: what is bound has the fields of an error, and beyond the first level
they are those of the first array. -/
theorem Recaught.fields (h : Recaught first levels a) :
    a.OfError ∧ (levels = 0 ∧ a = first ∨ a.Rethrows first) := by
  induction h with
  | first hbinds => exact ⟨hbinds.ofError, .inl ⟨rfl, rfl⟩⟩
  | again _ hthrows hbinds ih =>
    have hstep := hbinds.rethrows hthrows ih.1
    refine ⟨hstep.ofError ih.1, .inr ?_⟩
    obtain ⟨-, heq⟩ | hbefore := ih.2
    · exact heq ▸ hstep
    · exact hstep.trans hbefore

/-- A `try` whose block comes to a `throw` binds the error of that `throw`. -/
theorem Throws.bindsError {thrown : Throw} (h : Throws n block (s.withTry true) thrown)
    (binding : Identifier) (catchBlock : Block) :
    ∃ w c, (ofBudget n).tryCatch block binding catchBlock s =
        (Run.bindLocal binding (.assoc c) >>= fun _ => (ofBudget n).executeBlock catchBlock) w ∧
      BindsError n block s (w.heap.assoc c) := by
  obtain ⟨t, hexit⟩ := h.exit rfl
  obtain ⟨r, c, w, hcaught, -⟩ := Run.caught_apply thrown.error (t.withTry s.tryMode)
  refine ⟨w, c, ?_, thrown.error, t, c, w, hexit, hcaught, rfl⟩
  rw [Evaluator.tryCatch, Run.catching, hexit]
  dsimp only
  rw [catchError, Routine.bind_apply, hcaught]

end Evaluator

/-! ## A block that throws what it has caught -/

namespace Evaluator

/-- A block that catches an error and throws what it has bound. -/
def rethrowing (block : Block) (binding : Identifier) (place : Location) : Block :=
  ⟨[.tryCatch block binding ⟨[.throwing (.reference binding) place], place⟩ place], place⟩

/-- What is thrown again is what was bound. -/
theorem throws_rethrowing {n : Nat} {block : Block} {binding : Identifier} {place : Location}
    {s v : Session} (hs : s.Quiet) (htry : s.tryMode = true)
    (hexit : (ofBudget (n + 2)).executeBlock block ({ s with location := place }.withTry true) =
      .exit (.error e) v)
    (hv : v.Quiet) (hname : Text.fold binding.name ∉ ["m", "line_num"])
    (hfree : Text.fold binding.name ≠ "global") :
    ∃ r u, BindsError (n + 2) block { s with location := place } (u.heap.assoc r) ∧
      Throws (n + 3) (rethrowing block binding place) s ⟨.assoc r, place, u⟩ := by
  let t := { s with location := place }
  obtain ⟨trace, c, w, hcaught, -⟩ := Run.caught_apply e (v.withTry t.tryMode)
  obtain ⟨heap, rfl⟩ : ∃ heap, w = { v with tryMode := t.tryMode, heap := heap } := by
    cases hcaught
    exact ⟨_, rfl⟩
  let bound : Session :=
    { v with
      tryMode := t.tryMode
      heap := heap
      scopes := v.scopes.bind binding.name (.assoc c) }
  have hbound : (Run.caught e >>= Run.bindLocal binding) (v.withTry t.tryMode) =
      .done () bound := by
    rw [Routine.bind_apply, hcaught]
    dsimp only
    rw [Run.bindLocal, if_neg hfree]
    rfl
  have hquiet : bound.Quiet := ⟨hv.pending, hv.suspension, hv.debugMode, hv.debugger⟩
  refine ⟨c, { bound with location := binding.location }, ⟨e, v, c, _, hexit, hcaught, rfl⟩, ?_⟩
  refine throws_of_handler hs.pending (approach_quiet hs _) hexit hbound htry ?_
  refine throws_of_head htry ⟨_, _, rfl, hquiet.pending, approach_quiet hquiet _, ?_⟩
  show Outcome.done (bound.scopes.get binding) { bound with location := binding.location } = _
  rw [show bound.scopes.get binding = .assoc c from v.scopes.get_bind _ hname]

/-- What is bound for an error that carries nothing along. -/
theorem BindsError.get?_of_exit {n : Nat} {block : Block} {s t : Session} {a : AssocArray}
    (h : BindsError n block s a)
    (hexit : (ofBudget n).executeBlock block (s.withTry true) = .exit (.error e) t)
    (hextra : e.extra = []) :
    a.get? "number" = some (.integer e.number) ∧ a.get? "message" = some (.string e.message) := by
  obtain ⟨e', t', r, hexit', rfl⟩ := h.exists_members
  cases hexit.symm.trans hexit'
  obtain ⟨hmessage, hnumber, -⟩ := e.get?_standard (.array r)
  rw [ScriptError.members_eq, hextra, List.foldl_nil]
  exact ⟨hnumber, hmessage⟩

end Evaluator

/-! ## Through any number of levels -/

/-- An array that was bound for an error, whichever it was, is thrown through any number of levels,
each time as it was bound. What the outermost `catch` binds has the number, the backtrace and the
further fields of the first array and is marked as thrown again. It also has the text, unless that
is empty: then it has the text that goes with the number. -/
theorem rethrown_fields (n levels : Nat) (tryBlock catchBlock : Block) (binding : Identifier)
    (s u : Session) (r : AssocRef) (place : Location) (first : AssocArray)
    (hfirst : Evaluator.Recaught first levels (u.heap.assoc r))
    (hthrows : Evaluator.Throws n tryBlock (s.withTry true) ⟨.assoc r, place, u⟩) :
    ∃ (w : Session) (c : AssocRef),
      (Evaluator.ofBudget n).tryCatch tryBlock binding catchBlock s =
        (Run.bindLocal binding (.assoc c) >>= fun _ =>
          (Evaluator.ofBudget n).executeBlock catchBlock) w ∧
      Evaluator.Recaught first (levels + 1) (w.heap.assoc c) ∧
      (w.heap.assoc c).Rethrows first := by
  obtain ⟨w, c, hrun, hbinds⟩ := hthrows.bindsError binding catchBlock
  have hlast := hfirst.again hthrows hbinds
  obtain ⟨-, ⟨hzero, -⟩ | hrethrows⟩ := hlast.fields
  · exact absurd hzero (Nat.succ_ne_zero levels)
  · exact ⟨w, c, hrun, hlast, hrethrows⟩

namespace Evaluator

def failing : Block :=
  ⟨[.expression (.call (.reference ⟨"f", .builtin⟩) [] false .builtin .builtin)], .builtin⟩

theorem rethrown_fields_failing :
    ∃ w c, (ofBudget 6).tryCatch (rethrowing failing ⟨"e", .builtin⟩ .builtin) ⟨"f", .builtin⟩
        ⟨[], .builtin⟩ (.new .standard) =
        (Run.bindLocal ⟨"f", .builtin⟩ (.assoc c) >>= fun _ =>
          (ofBudget 6).executeBlock ⟨[], .builtin⟩) w ∧
      (w.heap.assoc c).get? "number" = some (.integer 224) ∧
      (w.heap.assoc c).get? "message" = some (.string Fault.notAFunction.message) ∧
      (w.heap.assoc c).get? "rethrown" = some (.boolean true) := by
  let s : Session := (Session.new .standard).withTry true
  obtain ⟨e, v, hexit, hquiet, hnumber, hmessage, hextra⟩ : ∃ e v,
      (ofBudget 5).executeBlock failing ({ s with location := .builtin }.withTry true) =
        .exit (.error e) v ∧ v.Quiet ∧ e.number = 224 ∧ e.message = Fault.notAFunction.message ∧
        e.extra = [] :=
    ⟨_, _, rfl, ⟨rfl, rfl, rfl, rfl⟩, rfl, rfl, rfl⟩
  obtain ⟨r, u, hfirst, hthrows⟩ : ∃ r u,
      BindsError 5 failing { s with location := .builtin } (u.heap.assoc r) ∧
      Throws 6 (rethrowing failing ⟨"e", .builtin⟩ .builtin) s ⟨.assoc r, .builtin, u⟩ :=
    throws_rethrowing ⟨rfl, rfl, rfl, rfl⟩ rfl hexit hquiet (by decide) (by decide)
  obtain ⟨hnumber', hmessage'⟩ := hfirst.get?_of_exit hexit hextra
  obtain ⟨w, c, hrun, -, hfields⟩ := rethrown_fields 6 0 _ ⟨[], .builtin⟩ ⟨"f", .builtin⟩
    (.new .standard) u r .builtin _ (.first hfirst) hthrows
  rw [hnumber] at hnumber'
  rw [hmessage] at hmessage'
  exact ⟨w, c, hrun, hfields.number.trans hnumber', hfields.text _ hmessage' (by decide),
    hfields.rethrown⟩

def throwingNothing : Block :=
  ⟨[.throwing (.literal (.string "") .builtin) .builtin], .builtin⟩

theorem text_changes_if_empty :
    ¬ ∀ (first : AssocArray) (levels : Nat) (last : AssocArray), Recaught first levels last →
      last.get? "message" = first.get? "message" := by
  intro hkeeps
  let s : Session := (Session.new .standard).withTry true
  obtain ⟨e, v, hexit, hquiet, hnumber, hmessage, hextra⟩ : ∃ e v,
      (ofBudget 5).executeBlock throwingNothing ({ s with location := .builtin }.withTry true) =
        .exit (.error e) v ∧ v.Quiet ∧ e.number = Fault.userDefined.number ∧ e.message = "" ∧
        e.extra = [] :=
    ⟨_, _, rfl, ⟨rfl, rfl, rfl, rfl⟩, rfl, rfl, rfl⟩
  obtain ⟨r, u, hfirst, hthrows⟩ : ∃ r u,
      BindsError 5 throwingNothing { s with location := .builtin } (u.heap.assoc r) ∧
      Throws 6 (rethrowing throwingNothing ⟨"e", .builtin⟩ .builtin) s ⟨.assoc r, .builtin, u⟩ :=
    throws_rethrowing ⟨rfl, rfl, rfl, rfl⟩ rfl hexit hquiet (by decide) (by decide)
  obtain ⟨hnumber', hmessage'⟩ := hfirst.get?_of_exit hexit hextra
  rw [hnumber] at hnumber'
  rw [hmessage] at hmessage'
  obtain ⟨w, c, -, hbinds⟩ :=
    hthrows.bindsError (s := .new .standard) ⟨"f", .builtin⟩ ⟨[], .builtin⟩
  have hfields := hbinds.rethrows hthrows hfirst.ofError
  have hkept := hkeeps _ _ _ (.again (.first hfirst) hthrows hbinds)
  rw [hfields.noText hmessage' _ hnumber', hmessage', Thrown.textOfNumber_number] at hkept
  simp only [Option.some.injEq, Value.string.injEq] at hkept
  exact absurd hkept (by decide)

end Evaluator

end BrightScript
