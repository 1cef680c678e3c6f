import BrightScript.Proofs.DeclarationOrder
import BrightScript.Proofs.SharedScopes

/-!
# What a declaration does

The functions that scripts declare stand in two tables: what each name is bound to, and where the
function bound to it is written. In every session that runs come to the tables belong together, and
`m` is in neither (`Scopes.Registered`). So a declaration of another name always finds the place of
the function that is already bound, and compares it with its own: a function written elsewhere is an
error, and a function written at the same place is left as it is, whatever it is. That is the one
declaration written there, unless two sources were run under the name of one file.
-/

namespace BrightScript

variable {name : Identifier} {s : Session} {body : Procedure}

def Scopes.Declares (s : Scopes) (name : Identifier) (body : Procedure) : Prop :=
  s.modules[Text.fold name.name]? =
    some (.function ⟨.declared (Text.fold name.name), .procedure body, none⟩)

/-- Every name is bound to a declared function and is known to be declared where this function is
written, no other name is known, and `m` is never bound. -/
structure Scopes.Registered (s : Scopes) : Prop where
  bound : ∀ (key : String) (v : Value), s.modules[key]? = some v →
    ∃ body : Procedure, v = .function ⟨.declared key, .procedure body, none⟩ ∧
      s.definitions[key]? = some body.location
  known : ∀ key : String, key ∈ s.definitions → key ∈ s.modules
  m : "m" ∉ s.modules

namespace Scopes.Registered

variable {s : Scopes}

theorem ofShared {a b : Scopes} (h : a.Registered) (hmodules : b.modules = a.modules)
    (hdefinitions : b.definitions = a.definitions) : b.Registered := by
  refine ⟨?_, ?_, ?_⟩
  · rw [hmodules, hdefinitions]
    exact h.bound
  · rw [hmodules, hdefinitions]
    exact h.known
  · rw [hmodules]
    exact h.m

theorem defineModule (h : s.Registered) (hm : Text.fold name.name ≠ "m") (body : Procedure) :
    (s.defineModule name.name (.function (.ofDeclaration name.name body))
      (some body.location)).Registered := by
  refine ⟨?_, ?_, ?_⟩
  · intro key v hv
    simp only [Scopes.defineModule, Std.ExtTreeMap.getElem?_insert] at hv ⊢
    by_cases heq : compare (Text.fold name.name) key = .eq
    · rw [if_pos heq] at hv ⊢
      obtain rfl := Std.LawfulEqCmp.eq_of_compare heq
      exact ⟨_, (Option.some.inj hv).symm, rfl⟩
    · rw [if_neg heq] at hv ⊢
      exact h.bound key v hv
  · intro key hkey
    simp only [Scopes.defineModule, Std.ExtTreeMap.mem_insert] at hkey ⊢
    exact hkey.imp_right (h.known key)
  · intro hmem
    simp only [Scopes.defineModule, Std.ExtTreeMap.mem_insert] at hmem
    rcases hmem with heq | hmem
    · exact hm (Std.LawfulEqCmp.eq_of_compare heq)
    · exact h.m hmem

theorem declare (h : s.Registered) (hm : Text.fold name.name ≠ "m")
    (body : Procedure) : (s.declare name body).Registered := by
  obtain heq | ⟨-, heq⟩ := s.declare_cases name body
  · rw [heq]
    exact h
  · rw [heq]
    exact h.defineModule hm body

/-- The place of a bound function is the one that declarations are compared with. -/
theorem definedAt?_eq (h : s.Registered) (hbody : s.Declares name body) :
    s.definedAt? name.name = some body.location := by
  obtain ⟨other, heq, hplace⟩ := h.bound _ _ hbody
  cases heq
  exact hplace

theorem exists_declares (h : s.Registered) (hmem : Text.fold name.name ∈ s.modules) :
    ∃ body, s.Declares name body := by
  obtain ⟨body, hbody, -⟩ := h.bound _ _ (Std.ExtTreeMap.getElem?_eq_some_getElem hmem)
  exact ⟨body, (Std.ExtTreeMap.getElem?_eq_some_getElem hmem).trans (congrArg some hbody)⟩

end Scopes.Registered

theorem Scopes.Declares.mem {s : Scopes} (h : s.Declares name body) :
    Text.fold name.name ∈ s.modules := by
  rw [Std.ExtTreeMap.mem_iff_isSome_getElem?, h]
  rfl

theorem Scopes.Declares.unique {s : Scopes} {other : Procedure} (h : s.Declares name body)
    (h' : s.Declares name other) : body = other := by
  have heq := h.symm.trans h'
  cases heq
  rfl

theorem Scopes.declares_declare {s : Scopes} (hfree : Text.fold name.name ∉ s.modules)
    (body : Procedure) : (s.declare name body).Declares name { body with name := name.name } := by
  rw [Scopes.declare, if_neg hfree]
  exact Std.ExtTreeMap.getElem?_insert_self

/-! ## Every session has its functions registered -/

theorem Session.registered_ofCore {t : Session} (hs : s.scopes.Registered) (h : t.core = s.core) :
    t.scopes.Registered := by
  have hscopes : t.scopes = s.scopes := congrArg Core.scopes h
  rw [hscopes]
  exact hs

theorem Session.registered_update {P : Value → Prop} {g : Grade} {f : Session → Session}
    (h : Update P True g f) (hs : s.scopes.Registered) : (f s).scopes.Registered := by
  cases h with
  | declare _ _ hm => exact hs.declare hm _
  | _ => exact hs.ofShared rfl rfl

/-- Runs keep the functions registered. -/
def Contract.registered : Contract fun _ => True :=
  Invariant.contract {
    inv s := s.scopes.Registered
    admissible := .trivial
    holds := fun {s} _ => .trivial s
    update := Session.registered_update
    serviced := fun h hs => Session.registered_ofCore hs h.core
    raise := fun _ hs => Session.registered_ofCore hs (Session.core_note _ _)
    tried := id
    untried := fun _ => id
    unhelped := fun hs => hs.ofShared rfl rfl
    rewound := id
    entered := fun _ hs => hs.ofShared rfl rfl
    returnedTo := fun _ ht => ht.ofShared rfl rfl }

theorem Session.registered_new (options : Options) : (Session.new options).scopes.Registered := by
  have hfree := (Session.new_quiet options).2.2
  refine ⟨?_, ?_, (hfree "m").1⟩
  · intro key v hv
    rw [Std.ExtTreeMap.getElem?_eq_none (hfree key).1] at hv
    cases hv
  · intro key hkey
    exact ((hfree key).2 hkey).elim

theorem Session.BetweenRuns.registered {P : Value → Prop} (h : s.BetweenRuns P) :
    s.scopes.Registered := by
  induction h with
  | new options => exact Session.registered_new options
  | exec _ _ hexec ih => exact (Contract.registered.exec (fun _ _ => trivial) ih hexec).inv
  | share _ _ ih | clock _ _ ih | observe _ _ ih | ignore _ _ ih | suspend _ _ ih | debug _ _ ih =>
    exact ih

/-! ## One declaration -/

/-- What a declaration does: it refuses a reserved name, passes over `m`, binds a new name, passes
over a function written at its own place, and refuses one written elsewhere. -/
theorem Run.declare_cases (hs : s.scopes.Registered) (name : Identifier) (body : Procedure) :
    (name.isReserved = true ∧ Run.declare name body s =
      Run.raise (.plain s!"{Run.reservedFunction} '{name.name}'" name.location) s) ∨
    (Text.fold name.name = "m" ∧ Run.declare name body s = .done () s) ∨
    (Text.fold name.name ∉ s.scopes.modules ∧ Text.fold name.name ≠ "m" ∧
      Run.declare name body s = .done () { s with scopes := s.scopes.declare name body }) ∨
    ∃ bound, s.scopes.Declares name bound ∧
      (bound.location = body.location ∧ Run.declare name body s = .done () s ∨
        bound.location ≠ body.location ∧ Run.declare name body s =
          Run.raise (.plain (Run.redeclared name body bound.location) name.location) s) := by
  cases hname : name.isReserved with
  | true =>
    refine .inl ⟨rfl, ?_⟩
    rw [Run.declare, Run.rejectReserved, if_pos hname]
    rfl
  | false =>
    refine .inr ?_
    have hallowed : Run.rejectReserved name Run.reservedFunction = pure () := by
      rw [Run.rejectReserved, hname]
      rfl
    rw [Run.declare, hallowed, pure_bind, Routine.bind_apply, Routine.view_apply]
    dsimp only
    by_cases hm : Text.fold name.name = "m"
    · have hunknown : s.scopes.definedAt? name.name = none := by
        refine Std.ExtTreeMap.getElem?_eq_none fun hmem => hs.m ?_
        rw [hm] at hmem
        exact hs.known "m" hmem
      rw [if_pos (by simp [Scopes.has, hm]), hunknown]
      exact .inl ⟨hm, rfl⟩
    · refine .inr ?_
      by_cases hmem : Text.fold name.name ∈ s.scopes.modules
      · obtain ⟨bound, hbound⟩ := hs.exists_declares hmem
        have hhas : s.scopes.has name.name [.module] = true := by
          simp [Scopes.has, Scopes.bindings, hmem]
        rw [if_pos hhas, hs.definedAt?_eq hbound]
        refine .inr ⟨bound, hbound, ?_⟩
        by_cases hplace : bound.location = body.location
        · refine .inl ⟨hplace, ?_⟩
          simp [hplace]
        · refine .inr ⟨hplace, ?_⟩
          simp [hplace]
      · have hhas : ¬ s.scopes.has name.name [.module] = true := by
          simp [Scopes.has, Scopes.bindings, hmem, hm]
        rw [if_neg hhas]
        exact .inl ⟨hmem, hm, rfl⟩

/-- A name that is bound to a function written elsewhere is refused. -/
theorem Run.declare_elsewhere (hs : s.scopes.Registered) {bound : Procedure}
    (hbound : s.scopes.Declares name bound) (hplace : bound.location ≠ body.location) :
    ∃ message, Run.declare name body s = Run.raise (.plain message name.location) s := by
  obtain ⟨-, heq⟩ | ⟨hm, -⟩ | ⟨hfree, -, -⟩ | ⟨other, hother, ⟨heq, -⟩ | ⟨-, heq⟩⟩ :=
    Run.declare_cases hs name body
  · exact ⟨_, heq⟩
  · exact absurd (hm ▸ hbound.mem) hs.m
  · exact absurd hbound.mem hfree
  · rw [hbound.unique hother] at hplace
    exact absurd heq hplace
  · exact ⟨_, heq⟩

/-- A declaration that came to its end bound a new name, or changed nothing. -/
theorem Run.of_declare_done {t : Session} (hs : s.scopes.Registered)
    (h : Run.declare name body s = .done () t) :
    Text.fold name.name = "m" ∧ t.scopes = s.scopes ∨
      ∃ bound, t.scopes.Declares name bound ∧ bound.location = body.location ∧
        (Text.fold name.name ∉ s.scopes.modules ∧ bound = { body with name := name.name } ∨
          s.scopes.Declares name bound ∧ t.scopes = s.scopes) := by
  obtain ⟨-, heq⟩ | ⟨hm, heq⟩ | ⟨hfree, -, heq⟩ | ⟨bound, hbound, ⟨hplace, heq⟩ | ⟨-, heq⟩⟩ :=
    Run.declare_cases hs name body <;> rw [heq] at h <;> cases h
  · exact .inl ⟨hm, rfl⟩
  · exact .inr ⟨_, Scopes.declares_declare hfree body, rfl, .inl ⟨hfree, rfl⟩⟩
  · exact .inr ⟨bound, hbound, hplace, .inr ⟨hbound, rfl⟩⟩

/-- A name that is not reserved and not bound to a function written elsewhere is declared. -/
theorem Run.exists_declare_done (hs : s.scopes.Registered) (hname : name.isReserved = false)
    (hplace : ∀ bound, s.scopes.Declares name bound → bound.location = body.location) :
    ∃ t, Run.declare name body s = .done () t := by
  obtain ⟨hreserved, -⟩ | ⟨-, heq⟩ | ⟨-, -, heq⟩ | ⟨bound, hbound, ⟨-, heq⟩ | ⟨hne, -⟩⟩ :=
    Run.declare_cases hs name body
  · rw [hname] at hreserved
    cases hreserved
  · exact ⟨_, heq⟩
  · exact ⟨_, heq⟩
  · exact ⟨_, heq⟩
  · exact absurd (hplace bound hbound) hne

/-- A declaration is come to, where the debugger may end the run, and then declares. -/
theorem execute_declaration (n : Nat) (name : Identifier) (body : Procedure)
    (hpending : s.scopes.pending = none) :
    (∃ t, t.scopes = s.scopes ∧
      execute (n + 1) (.declaration name body) s = Run.declare name body t) ∨
    ∃ location t, t.scopes = s.scopes ∧
      execute (n + 1) (.declaration name body) s = .exit (.debugExit location) t := by
  have hexecute : execute (n + 1) (.declaration name body) s =
      (Evaluator.approach (.declaration name body) >>= fun _ => Run.declare name body) s :=
    Evaluator.statement_of_pending_none _ n _ hpending
  rw [hexecute, Routine.bind_apply]
  obtain ⟨t, ht, hcore⟩ | ⟨location, t, ht, hcore⟩ :=
    Evaluator.approach_cases (.declaration name body) s
  · exact .inl ⟨t, congrArg Core.scopes hcore, by rw [ht]⟩
  · exact .inr ⟨location, t, congrArg Core.scopes hcore, by rw [ht]⟩

/-! ## Declarations -/

/-- The functions are registered in every session between runs and wherever an expression or a
statement is started after that. In such a session, however it came about:

* A declaration that comes to its end leaves its name bound to a function written at the place of
  the declaration. It is the declared one, under the name of its declaration, if the name was not
  bound; otherwise it is the one that was bound, and nothing changed. Only a declaration under the
  name `m` binds nothing.
* A declaration of a name that is not reserved and not bound to a function written elsewhere comes
  to its end, unless the debugger ends the run at it.
* A declaration of a name that is bound to a function written elsewhere fails, unless the debugger
  ends the run at it, and changes neither table.
* A declaration that is passed over in search of a label changes nothing. -/
theorem declarations_take_effect (n : Nat) (name : Identifier) (body : Procedure) :
    (∀ (P : Value → Prop) (s : Session), s.BetweenRuns P → s.scopes.Registered) ∧
    (∀ (otherwise : Evaluator) (statements : List Statement) (s : Session)
        [DecidablePred fun s : Session => s.scopes.Registered], s.scopes.Registered →
      (Evaluator.watched (fun s => s.scopes.Registered) otherwise n).executeAll statements s =
        (Evaluator.ofBudget n).executeAll statements s) ∧
    ∀ s : Session, s.scopes.Registered →
      let result := execute (n + 1) (.declaration name body) s
      (∀ t, s.scopes.pending = none → result = .done () t →
        Text.fold name.name = "m" ∧ t.scopes = s.scopes ∧ "m" ∉ t.scopes.modules ∨
          ∃ bound, t.scopes.Declares name bound ∧ bound.location = body.location ∧
            (Text.fold name.name ∉ s.scopes.modules ∧ bound = { body with name := name.name } ∨
              s.scopes.Declares name bound ∧ t.scopes = s.scopes)) ∧
      (s.scopes.pending = none → name.isReserved = false →
        (∀ bound, s.scopes.Declares name bound → bound.location = body.location) →
        (∃ t, result = .done () t) ∨ ∃ location t, result = .exit (.debugExit location) t) ∧
      (∀ bound, s.scopes.pending = none → s.scopes.Declares name bound →
        bound.location ≠ body.location →
        ∃ signal t, result = .exit signal t ∧ t.scopes = s.scopes ∧
          ((∃ e, signal = .error e ∧ e.number? = none ∧ e.location = name.location) ∨
            ∃ location, signal = .debugExit location)) ∧
      (s.scopes.pending.isSome = true → result = .done () s) := by
  refine ⟨fun P s hs => hs.registered, ?_, ?_⟩
  · intro otherwise statements s _ hs
    have hcheck (t : Session) (ht : Contract.registered.inv t) : t.scopes.Registered := ht
    have related := Contract.registered.watched hcheck otherwise n
    exact (Contract.registered.simulation.executeAll related statements s hs).1
  intro s hs
  refine ⟨?_, ?_, ?_, ?_⟩
  · intro t hpending ht
    obtain ⟨u, hu, heq⟩ | ⟨location, u, -, heq⟩ := execute_declaration n name body hpending
    · rw [← hu] at hs ⊢
      obtain ⟨hm, hscopes⟩ | hbound := Run.of_declare_done hs (heq.symm.trans ht)
      · exact .inl ⟨hm, hscopes, hscopes ▸ hs.m⟩
      · exact .inr hbound
    · rw [heq] at ht
      cases ht
  · intro hpending hname hplace
    obtain ⟨u, hu, heq⟩ | ⟨location, u, -, heq⟩ := execute_declaration n name body hpending
    · rw [← hu] at hs hplace
      obtain ⟨t, ht⟩ := Run.exists_declare_done hs hname hplace
      exact .inl ⟨t, heq.trans ht⟩
    · exact .inr ⟨location, u, heq⟩
  · intro bound hpending hbound hplace
    obtain ⟨u, hu, heq⟩ | ⟨location, t, ht, heq⟩ := execute_declaration n name body hpending
    · rw [← hu] at hs hbound ⊢
      obtain ⟨message, hraise⟩ := Run.declare_elsewhere hs hbound hplace
      exact ⟨_, _, heq.trans hraise, congrArg Core.scopes (Session.core_note u _),
        .inl ⟨_, rfl, rfl, rfl⟩⟩
    · exact ⟨_, t, heq, ht, .inr ⟨location, rfl⟩⟩
  · intro hpending
    obtain ⟨label, hlabel⟩ := Option.isSome_iff_exists.1 hpending
    show (Evaluator.ofBudget n).statement n (.declaration name body) s = .done () s
    rw [Evaluator.statement_of_pending hlabel]
    rfl

/-- A function without statements. -/
def declaredFirst : Procedure :=
  ⟨"F", [], .integer, false, ⟨[], .builtin⟩, .builtin⟩

/-- The same function, written in another file. -/
def declaredElsewhere : Procedure :=
  { declaredFirst with location := { Location.builtin with file := "other.brs" } }

/-- Another function, written at the place of the first. -/
def declaredInPlace : Procedure :=
  { declaredFirst with returns := .string }

/-- A new name is bound, and in a later declaration, spelled in another way, it is taken. -/
theorem declarations_take_effect_of_two_files :
    ∃ t : Session, execute 1 (.declaration ⟨"F", .builtin⟩ declaredFirst) (.new .standard) =
        .done () t ∧
      t.scopes.Declares ⟨"f", .builtin⟩ declaredFirst ∧
      ∃ signal u, execute 1 (.declaration ⟨"f", .builtin⟩ declaredElsewhere) t =
        .exit signal u ∧ u.scopes = t.scopes := by
  obtain ⟨hruns, -, hnew⟩ := declarations_take_effect 0 ⟨"F", .builtin⟩ declaredFirst
  have hs := hruns (fun _ => True) (.new .standard) (.new _)
  have hpending := (Session.clean_new .standard).pending
  obtain ⟨t, ht⟩ : ∃ t, execute 1 (.declaration ⟨"F", .builtin⟩ declaredFirst) (.new .standard) =
      .done () t := ⟨_, rfl⟩
  have hends := Contract.registered.execute 1 (.declaration ⟨"F", .builtin⟩ declaredFirst) hs
  rw [ht] at hends
  have hfirst : t.scopes.Declares ⟨"f", .builtin⟩ declaredFirst := by
    obtain ⟨hm, -⟩ | ⟨bound, hbound, -, ⟨-, rfl⟩ | ⟨hold, -⟩⟩ :=
      (hnew (.new .standard) hs).1 t hpending ht
    · exact absurd hm (by decide)
    · exact hbound
    · exact absurd hold.mem ((Session.new_quiet .standard).2.2 _).1
  have hframes := Contract.sameFrames_of_ends
    ((Contract.frames False).execute 1 (.declaration ⟨"F", .builtin⟩ declaredFirst)
      (s := .new .standard) False.elim) (by rw [ht]; rfl)
  obtain ⟨-, -, htaken⟩ := declarations_take_effect 0 ⟨"f", .builtin⟩ declaredElsewhere
  obtain ⟨signal, u, hu, hscopes, -⟩ :=
    (htaken t hends.2.1).2.2.1 declaredFirst (hframes.active.1 hpending) hfirst (by decide)
  exact ⟨t, ht, hfirst, signal, u, hu, hscopes⟩

/-- A second function under one name whose source has the place of the first, and a function under
the name `m`, are not bound. -/
theorem declarations_without_effect :
    ∃ t u v : Session,
      (Session.new { Options.standard with entryPoint := false }).exec 2
        [.declaration ⟨"F", .builtin⟩ declaredFirst] [] =
          some (.ok ⟨.invalid, .completed⟩, t) ∧
      t.exec 2 [.declaration ⟨"F", .builtin⟩ declaredInPlace] [] =
        some (.ok ⟨.invalid, .completed⟩, u) ∧
      u.scopes.Declares ⟨"F", .builtin⟩ declaredFirst ∧ declaredInPlace ≠ declaredFirst ∧
      u.exec 2 [.declaration ⟨"m", .builtin⟩ declaredFirst] [] =
        some (.ok ⟨.invalid, .completed⟩, v) ∧
      "m" ∉ v.scopes.modules := by
  let s := Session.new { Options.standard with entryPoint := false }
  let t : Session := { s with scopes := s.scopes.declare ⟨"F", .builtin⟩ declaredFirst }
  have hs : s.scopes.Registered := Session.registered_new _
  refine ⟨t, t, t, rfl, rfl, ?_, ?_, rfl, ?_⟩
  · exact Scopes.declares_declare ((Session.new_quiet _).2.2 _).1 _
  · intro heq
    cases congrArg Procedure.returns heq
  · exact (hs.declare (by decide) declaredFirst).m

end BrightScript
