import BrightScript.Proofs.Discipline

/-!
# Names that say the kind of their variable

A name that ends in one of the letters `$`, `%`, `!`, `#` and `&` demands a kind of the values of
its variable. Assignments, the counters of loops and steps of one see to it. A `dim`, the variable
of a `for each` and the variable of a `catch` bind any value to any name, and so does a parameter
whose declared kind is another one, whose default is not of its kind, or which is left out.

So the values are of the demanded kinds in every call whose body uses those three constructs for
names without a kind letter only, and whose parameters are declared accordingly.
-/

namespace BrightScript

variable {c : Char} {v w : Value}

def Text.designator? (name : String) : Option Char :=
  name.toList.getLast?.filter isDesignator

theorem toLower_of_isDesignator (h : isDesignator c = true) : c.toLower = c := by
  simp only [isDesignator, Bool.or_eq_true, beq_iff_eq] at h
  obtain (((rfl | rfl) | rfl) | rfl) | rfl := h <;> rfl

theorem not_isDesignator_of_le (h : 65 ≤ c.toNat) : isDesignator c = false := by
  rw [Bool.eq_false_iff]
  intro hc
  simp only [isDesignator, Bool.or_eq_true, beq_iff_eq] at hc
  obtain (((rfl | rfl) | rfl) | rfl) | rfl := hc <;> exact absurd h (by decide)

theorem isDesignator_toLower (c : Char) : isDesignator c.toLower = isDesignator c := by
  by_cases hcapital : c.val ≥ 'A'.val ∧ c.val ≤ 'Z'.val
  · obtain ⟨hlow, hlower⟩ := Text.toNat_of_capital hcapital
    rw [not_isDesignator_of_le hlow, not_isDesignator_of_le (Nat.le_trans (by decide) hlower)]
  · rw [show c.toLower = c from dif_neg hcapital]

/-- The kind letter does not depend on the case of the name. -/
theorem Text.designator?_fold (name : String) : designator? (fold name) = designator? name := by
  unfold designator?
  rw [toList_fold, List.getLast?_map]
  cases name.toList.getLast? with
  | none => rfl
  | some c =>
    rw [Option.map_some, Option.filter_some, Option.filter_some, isDesignator_toLower]
    cases hc : isDesignator c with
    | false => rfl
    | true => rw [toLower_of_isDesignator hc]

theorem Kind.ofDesignator_ne (h : isDesignator c = true) :
    Kind.ofDesignator c ≠ .dynamic ∧ Kind.ofDesignator c ≠ .interface ∧
      Kind.ofDesignator c ≠ .object := by
  simp only [isDesignator, Bool.or_eq_true, beq_iff_eq] at h
  obtain (((rfl | rfl) | rfl) | rfl) | rfl := h <;> decide

theorem Text.isDesignator_of_designator? {name : String} (h : designator? name = some c) :
    isDesignator c = true :=
  (Option.filter_eq_some_iff.1 h).2

namespace Value

theorem kind_of_coerceForDesignator? {kind : Kind} (h : v.coerceForDesignator? kind = some w)
    (hkind : kind ≠ .dynamic) : w.kind = kind := by
  unfold coerceForDesignator? at h
  rw [if_neg hkind] at h
  split at h
  · next hsame =>
    cases h
    exact hsame
  · split at h
    · cases h
      rfl
    · cases h
      rfl
    · cases h

/-- A step of one keeps the kind of a number. -/
theorem kind_of_stepped {op : IncrementOp}
    (h : v.unbox.arithmetic (Evaluator.stepOperator op).1 (.integer 1) = .ok w)
    (hkind : v.kind ≠ .object) : w.kind = v.kind := by
  cases v with
  | integer | longInteger | float | double =>
    cases op <;> cases h <;> rfl
  | array | assoc | boxed => exact absurd rfl hkind
  | _ => cases h

end Value

/-- Every variable whose name ends in a kind letter has a value of that kind. -/
def Bindings.Designated (b : Bindings) : Prop :=
  ∀ (key : String) (v : Value), b[key]? = some v →
    ∀ c, Text.designator? key = some c → v.kind = .ofDesignator c

instance (b : Bindings) : Decidable b.Designated :=
  decidable_of_iff
    (b.toList.all fun entry =>
      (Text.designator? entry.1).all fun c => entry.2.kind == .ofDesignator c) <| by
    simp only [List.all_eq_true, Option.all_eq_true, beq_iff_eq]
    constructor
    · intro h key v hv c hc
      exact h (key, v) (Std.ExtTreeMap.mem_toList_iff_getElem?_eq_some.2 hv) c hc
    · intro h entry hentry c hc
      exact h entry.1 entry.2 (Std.ExtTreeMap.mem_toList_iff_getElem?_eq_some.1 hentry) c hc

/-- Whether a construct turns values into the kind that the name of its variable demands. -/
def Binder.converts : Binder → Bool
  | assigned | counted | stepped => true
  | dimmed | walked | caught => false

/-- A parameter that is declared as its name says, with a default whose values can be turned into
its kind. -/
def Parameter.Designated (p : Parameter) : Prop :=
  ∀ c, Text.designator? p.name.name = some c → p.kind = .ofDesignator c ∧
    ∀ e, p.default? = some e → ∀ n s v t, evaluate n e s = .done v t → (v.coerce? p.kind).isSome

theorem Identifier.kind_of_admit? {name : Identifier} (h : name.admit? v = some w)
    (hc : Text.designator? (Text.fold name.name) = some c) : w.kind = .ofDesignator c := by
  rw [Text.designator?_fold] at hc
  have hname : name.designator? = some c := hc
  rw [Identifier.admit?, hname] at h
  exact Value.kind_of_coerceForDesignator? h
    (Kind.ofDesignator_ne (Text.isDesignator_of_designator? hc)).1

theorem Binder.kind_of_unconverted {binder : Binder} {name : Identifier}
    (hbinder : binder.converts = false)
    (h : binder.converts = true ∨ Text.designator? name.name = none) (v : Value)
    (hc : Text.designator? (Text.fold name.name) = some c) : v.kind = .ofDesignator c := by
  rw [Text.designator?_fold] at hc
  obtain h | h := h
  · rw [hbinder] at h
    cases h
  · rw [h] at hc
    cases hc

theorem Parameter.Designated.kind_of_coerce? {p : Parameter} (h : p.Designated)
    (hw : v.coerce? p.kind = some w) (hc : Text.designator? p.key = some c) :
    w.kind = .ofDesignator c := by
  rw [Parameter.key, Text.designator?_fold] at hc
  have hne := Kind.ofDesignator_ne (Text.isDesignator_of_designator? hc)
  rw [(h c hc).1] at hw
  exact Value.kind_of_coerce? hw hne.1 hne.2.1

/-- The constructs that convert may bind any name, the others only names without a kind letter. -/
def Discipline.designated : Discipline where
  fits key v := ∀ c, Text.designator? key = some c → v.kind = .ofDesignator c
  allows binder name := binder.converts = true ∨ Text.designator? name.name = none
  accepts body := body.RequiredFirst ∧ ∀ p ∈ body.parameters, p.Designated
  assigned _ _ hw _ hc := Identifier.kind_of_admit? hw hc
  counted _ hw _ hc := Identifier.kind_of_admit? hw hc
  stepped := by
    intro name op v w _ hv hw c hc
    have hline : Text.fold name.name ≠ "line_num" := by
      intro heq
      rw [heq] at hc
      cases hc
    have hkind : v.kind = .ofDesignator c := hv hline c hc
    have hobject : v.kind ≠ .object := by
      rw [hkind]
      exact (Kind.ofDesignator_ne (Text.isDesignator_of_designator? hc)).2.2
    rw [Value.kind_of_stepped hw hobject, hkind]
  dimmed hallowed _ v c hc := Binder.kind_of_unconverted rfl hallowed v hc
  walked hallowed v c hc := Binder.kind_of_unconverted rfl hallowed v hc
  caught hallowed v c hc := Binder.kind_of_unconverted rfl hallowed v hc
  received := by
    intro body args coerced i p haccepts hsatisfied hp
    obtain ⟨hordered, hparameters⟩ := haccepts
    obtain ⟨hcount, hright, rfl⟩ := Signature.of_satisfy? hsatisfied
    have hargument : body.signature.arguments[i]? = some p.argument := by
      simp [Procedure.signature, Signature.of, hp]
    have hdeclared := hparameters p (List.mem_of_getElem? hp)
    refine ⟨?_, ?_, ?_⟩
    · intro v hv c hc
      have hlength : i < args.length := by
        rw [← Signature.length_coerceAll body.signature.arguments args]
        exact (List.getElem?_eq_some_iff.1 hv).1
      obtain ⟨w, hw, hget⟩ := Signature.coerceAll_getElem? hright hargument
        (List.getElem?_eq_getElem hlength)
      rw [hv] at hget
      cases hget
      exact hdeclared.kind_of_coerce? hw hc
    · intro hnone hdefault
      have hle : args.length ≤ i := by
        rw [← Signature.length_coerceAll body.signature.arguments args]
        exact List.getElem?_eq_none_iff.1 hnone
      exact absurd hdefault
        (Signature.default_of_requiredCount_le hcount hordered.signature hargument hle)
    · intro hnone e he n s w t hw c hc
      have hname : Text.designator? p.name.name = some c := by
        rw [← Text.designator?_fold]
        exact hc
      obtain ⟨x, hx⟩ := Option.isSome_iff_exists.1 ((hdeclared c hname).2 e he n s w t hw)
      rw [hx]
      exact hdeclared.kind_of_coerce? hx hc

/-- In a call whose body and parameters follow the discipline, every statement is started with
values of the demanded kinds in all variables, in whatever session the call is made. So is every
statement of such a script that is started at the outermost level with such values, and the script
leaves such values behind. All sessions that a host can have share nothing but functions, and so
they do at all moments of a run. -/
theorem designated_names (n : Nat) (otherwise : Statement → Run Unit) :
    Discipline.designated.Upholds (fun s => s.locals.Designated) otherwise n ∧
    (∀ options, (Session.new options).locals.Designated) ∧
    (∀ (P : Value → Prop) (s : Session), s.BetweenRuns P → s.scopes.SharesFunctions ∧
      ∀ (stop : Session → Prop) [DecidablePred stop] (statements : List Statement) (t : Session),
        ((Evaluator.halted stop n).executeAll statements s).state? = some t →
          t.scopes.SharesFunctions) := by
  have hcheck (s : Session) : Discipline.designated.Ok s ↔
      s.locals.Designated ∧ s.scopes.SharesFunctions :=
    ⟨fun h => ⟨h.locals, h.shared⟩, fun h => ⟨h.1, h.2⟩⟩
  refine ⟨Discipline.upholds hcheck otherwise n, ?_, ?_⟩
  · intro options key v hv
    replace hv : (Session.new options).scopes.active.locals[key]? = some v := hv
    rw [Session.locals_new] at hv
    cases hv
  · intro P s hs
    exact ⟨hs.sharesFunctions, fun stop _ statements t ht =>
      (Evaluator.growsTo_halted ht).sharesFunctions hs.sharesFunctions⟩

theorem Bindings.not_designated {b : Bindings} (key : String) (c : Char) (hv : b[key]? = some v)
    (hc : Text.designator? key = some c) (hkind : v.kind ≠ .ofDesignator c) : ¬ b.Designated :=
  fun h => hkind (h key v hv c hc)

/-- Loops over the elements of an array, `dim` and handlers of errors bind a name with a kind letter
to whatever value they have for it, and so does the default of a parameter. -/
theorem designated_names_bound_unconverted :
    (∀ st ∈ [Statement.forEach ⟨"a$", .builtin⟩
          (.arrayLiteral [.literal (.integer 1) .builtin] .builtin) ⟨[], .builtin⟩ .builtin,
        .dim ⟨"a%", .builtin⟩ [.literal (.integer 0) .builtin] .builtin,
        .tryCatch ⟨[.throwing (.literal (.string "x") .builtin) .builtin], .builtin⟩
          ⟨"e$", .builtin⟩ ⟨[], .builtin⟩ .builtin],
      ∃ t, (Session.new { Options.standard with entryPoint := false }).exec 6 [st] [] =
        some (.ok ⟨.invalid, .completed⟩, t) ∧ ¬ t.locals.Designated) ∧
    ∃ t, (Evaluator.ofBudget 2).bindParameters
        [⟨⟨"a$", .builtin⟩, .string, some (.literal (.integer 1) .builtin)⟩] [] (.new .standard) =
      .done () t ∧ ¬ t.locals.Designated := by
  refine ⟨?_, _, rfl, Bindings.not_designated "a$" '$' Std.ExtTreeMap.getElem?_insert_self rfl ?_⟩
  · intro st hst
    obtain rfl | rfl | rfl : st = _ ∨ st = _ ∨ st = _ := by simpa using hst
    · refine ⟨_, rfl, Bindings.not_designated "a$" '$' Std.ExtTreeMap.getElem?_insert_self rfl ?_⟩
      exact fun h => (by cases h)
    · refine ⟨_, rfl, Bindings.not_designated "a%" '%' Std.ExtTreeMap.getElem?_insert_self rfl ?_⟩
      exact fun h => (by cases h)
    · refine ⟨_, rfl, Bindings.not_designated "e$" '$' Std.ExtTreeMap.getElem?_insert_self rfl ?_⟩
      exact fun h => (by cases h)
  · exact fun h => (by cases h)

/-- A loop that counts `a%` up and is left. -/
def countedUp : Statement :=
  .whileLoop (.literal (.boolean true) .builtin)
    ⟨[.increment (.reference ⟨"a%", .builtin⟩) .increment .builtin, .exitWhile .builtin],
      .builtin⟩ .builtin

/-- A script that counts `a%` up from one. -/
def countingScript : List Statement :=
  [.assignment ⟨"a%", .builtin⟩ (.literal (.integer 1) .builtin) .builtin, countedUp]

/-- `sub f(a% = 2& as integer)`, which counts its parameter up. -/
def countedFrom : Procedure :=
  ⟨"f", [⟨⟨"a%", .builtin⟩, .integer, some (.literal (.longInteger 2) .builtin)⟩], .void, true,
    ⟨[countedUp], .builtin⟩, .builtin⟩

theorem countedUp_follows : countedUp.Follows Discipline.designated.allows := by
  refine .intro (fun binder name h => (by cases h)) fun block hblock st hst => ?_
  obtain rfl : block = _ := List.mem_singleton.1 hblock
  obtain rfl | rfl : st = _ ∨ st = _ := by simpa using hst
  · refine .intro (fun binder name h => ?_) fun block hblock => (by cases hblock)
    cases h
    exact .inl rfl
  · exact .intro (fun binder name h => (by cases h)) fun block hblock => (by cases hblock)

theorem designated_names_of_countedUp :
    (∃ t, (Session.new { Options.standard with entryPoint := false }).exec 8 countingScript [] =
      some (.ok ⟨.invalid, .completed⟩, t) ∧ t.locals.Designated) ∧
    ∃ t, (Evaluator.supervised (fun s => s.locals.Designated) (fun _ => Routine.giveUp) 8).call 8
      (.ofDeclaration "f" countedFrom) [] none .builtin .builtin (.new .standard) =
        .done .invalid t := by
  obtain ⟨⟨-, hcall, hscript⟩, hnew, hbetween⟩ := designated_names 8 fun _ => Routine.giveUp
  have hshared (options : Options) : (Session.new options).scopes.SharesFunctions :=
    (hbetween (fun _ => True) _ (.new options)).1
  constructor
  · obtain ⟨t, ht⟩ : ∃ t, (Session.new { Options.standard with entryPoint := false }).exec 8
        countingScript [] = some (.ok ⟨.invalid, .completed⟩, t) := ⟨_, rfl⟩
    refine ⟨t, ht, hscript _ _ _ _ _ (fun st hst => ?_) (hnew _) (hshared _) ht⟩
    obtain rfl | rfl : st = _ ∨ st = _ := by simpa [countingScript] using hst
    · refine .intro (fun binder name h => ?_) fun block hblock => (by cases hblock)
      cases h
      exact .inl rfl
    · exact countedUp_follows
  · rw [hcall _ countedFrom _ _ _ _ _ _ rfl ?_ ?_ (hshared _)]
    · exact ⟨_, rfl⟩
    · refine ⟨List.pairwise_singleton _ _, fun p hp c hc => ?_⟩
      obtain rfl : p = _ := List.mem_singleton.1 hp
      cases hc
      refine ⟨rfl, fun e he n s v t hv => ?_⟩
      cases he
      cases n with
      | zero => cases hv
      | succ n =>
        cases hv
        rfl
    · intro st hst
      obtain rfl : st = _ := List.mem_singleton.1 hst
      exact countedUp_follows

end BrightScript
