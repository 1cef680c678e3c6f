import BrightScript.Proofs.Discipline

/-!
# Reserved names

No script declares a function by a reserved name, so the functions that all calls share never hide
one of the library. Variables are another matter: assignments and `dim` refuse a reserved name, and
a step of one finds no number behind it, but for the number of the current line. The counter of a
loop, the variable of a `for each` or of a `catch` and a parameter are bound without a look at their
names.

A call that binds none of these to a reserved name has no reserved variable whenever one of its
statements is started. Then a `print`, which has variables `tab` and `pos` of its own while it runs,
gives the variables back as they were.
-/

namespace BrightScript

variable {s : Session} {name : Identifier} {n : Nat}

def Bindings.Unreserved (b : Bindings) : Prop :=
  ∀ key ∈ Identifier.reservedWords, key ∉ b

instance (b : Bindings) : Decidable b.Unreserved :=
  inferInstanceAs (Decidable (∀ key ∈ Identifier.reservedWords, key ∉ b))

theorem Bindings.unreserved_iff {b : Bindings} :
    b.Unreserved ↔ ∀ (key : String) (v : Value), b[key]? = some v →
      key ∉ Identifier.reservedWords := by
  constructor
  · intro h key v hv hkey
    refine h key hkey ?_
    rw [Std.ExtTreeMap.mem_iff_isSome_getElem?, hv]
    rfl
  · intro h key hkey hmem
    rw [Std.ExtTreeMap.mem_iff_isSome_getElem?, Option.isSome_iff_exists] at hmem
    obtain ⟨v, hv⟩ := hmem
    exact h key v hv hkey

theorem Bindings.unreserved_empty : Bindings.Unreserved ∅ :=
  fun _ _ => Std.ExtTreeMap.not_mem_empty

theorem Identifier.not_mem_reservedWords (h : name.isReserved = false) :
    Text.fold name.name ∉ reservedWords := by
  rwa [isReserved, List.contains_eq_mem, decide_eq_false_iff_not] at h

/-- Assignments and `dim` may name anything, since they refuse reserved names themselves. -/
def Discipline.unreserved : Discipline where
  fits key _ := key ∉ Identifier.reservedWords
  allows
    | .assigned, _ | .dimmed, _ => True
    | .stepped, name => Text.fold name.name ≠ "line_num"
    | .counted, name | .walked, name | .caught, name => name.isReserved = false
  accepts body := ∀ p ∈ body.parameters, p.name.isReserved = false
  assigned _ hname _ := Identifier.not_mem_reservedWords hname
  counted hname _ := Identifier.not_mem_reservedWords hname
  stepped hline hv _ := hv hline
  dimmed _ hname _ := Identifier.not_mem_reservedWords hname
  walked hname _ := Identifier.not_mem_reservedWords hname
  caught hname _ := Identifier.not_mem_reservedWords hname
  received := by
    intro body args coerced i p haccepts _ hp
    have hkey : p.key ∉ Identifier.reservedWords :=
      Identifier.not_mem_reservedWords (haccepts p (List.mem_of_getElem? hp))
    exact ⟨fun _ _ => hkey, fun _ _ => hkey, fun _ _ _ _ _ _ _ _ => hkey⟩

theorem Discipline.ok_unreserved :
    Discipline.unreserved.Ok s ↔ s.locals.Unreserved ∧ s.scopes.SharesFunctions :=
  ⟨fun h => ⟨Bindings.unreserved_iff.2 h.locals, h.shared⟩,
    fun h => ⟨Bindings.unreserved_iff.1 h.1, h.2⟩⟩

/-! ## What is refused -/

/-- A step of one that is done has bound its variable. -/
theorem Evaluator.mem_locals_of_increment {op : IncrementOp} {location : Location} {t : Session}
    (h : (ofBudget n).increment (.reference name) op location s = .done () t) :
    Text.fold name.name ∈ t.locals := by
  obtain ⟨v, u, -, h⟩ := Routine.bind_eq_done.1 h
  obtain ⟨w, u', -, h⟩ := Routine.bind_eq_done.1 h
  replace h : Run.bindLocal name w u' = .done () t := h
  unfold Run.bindLocal at h
  split at h
  · cases h
  · cases h
    exact Std.ExtTreeMap.mem_insert_self

theorem Evaluator.increment_reserved (hname : name.isReserved = true)
    (hline : Text.fold name.name ≠ "line_num") (op : IncrementOp) (location : Location)
    (hs : Discipline.unreserved.Ok s) (t : Session) :
    (ofBudget n).increment (.reference name) op location s ≠ .done () t := by
  intro h
  have hkeeps : Discipline.unreserved.Keeps
      ((ofBudget n).increment (.reference name) op location)
      ((ofBudget n).increment (.reference name) op location) :=
    Discipline.increment_reference hline op location
  have ht := (Discipline.ok_unreserved.1 ((hkeeps s hs).2 t (congrArg Outcome.state? h))).1
  have hword : Text.fold name.name ∈ Identifier.reservedWords := List.contains_iff_mem.1 hname
  exact ht _ hword (mem_locals_of_increment h)

/-! ## What is shared -/

theorem Scopes.GrowsTo.unreserved {a b : Scopes} (h : a.GrowsTo b) (ha : a.modules.Unreserved) :
    b.modules.Unreserved := by
  rw [Bindings.unreserved_iff] at ha ⊢
  intro key v hv
  obtain hv | ⟨hkey, -⟩ := h.added key v hv
  · exact ha key v hv
  · exact hkey

theorem Scopes.modules_withGlobals (s : Scopes) : s.withGlobals.modules = s.modules := by
  have step (t : Scopes) (ht : t.modules = s.modules) (b : Builtin) (_ : b ∈ Builtin.globals) :
      (t.defineGlobal b.name (.function (.ofBuiltin b))).modules = s.modules := ht
  exact List.foldlRecOn Builtin.globals _ (motive := fun t : Scopes => t.modules = s.modules) rfl
    step

theorem Session.BetweenRuns.unreserved {P : Value → Prop} (h : s.BetweenRuns P) :
    s.scopes.modules.Unreserved := by
  obtain ⟨options, hlater⟩ := h.later
  refine hlater.growsTo.unreserved ?_
  show ((Scopes.ofRoot _).withGlobals).modules.Unreserved
  rw [Scopes.modules_withGlobals]
  exact Bindings.unreserved_empty

/-- A `print` gives all variables back, if none is reserved. -/
theorem Evaluator.locals_of_print_unreserved {items : List PrintItem} {t : Session}
    (hs : s.locals.Unreserved) (ht : ((ofBudget n).print items s).state? = some t) :
    t.locals = s.locals := by
  refine Std.ExtTreeMap.ext_getElem? fun key => ?_
  rw [locals_of_print ht]
  split
  · next hkey =>
    have hword : key ∈ Identifier.reservedWords := by
      obtain rfl | rfl := hkey <;> decide
    exact (Std.ExtTreeMap.getElem?_eq_none (hs key hword)).symm
  · rfl

/-- In a call whose body and parameters follow the discipline, every statement is started without a
reserved variable, in whatever session the call is made, and so is every statement of such a script.
The functions that are shared never have a reserved name, neither between runs nor at any moment of
a run. Assignments, `dim` and declarations refuse reserved names, and a step of one fails. A `print`
gives the variables back as they were. -/
theorem reserved_names (n : Nat) (otherwise : Statement → Run Unit) :
    Discipline.unreserved.Upholds (fun s => s.locals.Unreserved) otherwise n ∧
    (∀ options, (Session.new options).locals.Unreserved) ∧
    (∀ (P : Value → Prop) (s : Session), s.BetweenRuns P →
      (s.scopes.modules.Unreserved ∧ s.scopes.SharesFunctions) ∧
      ∀ (stop : Session → Prop) [DecidablePred stop] (statements : List Statement) (t : Session),
        ((Evaluator.halted stop n).executeAll statements s).state? = some t →
          t.scopes.modules.Unreserved ∧ t.scopes.SharesFunctions) ∧
    (∀ name : Identifier, name.isReserved = true →
      (∀ value, (Evaluator.ofBudget n).assignment name value =
        Run.raise (.plain s!"Cannot assign a value to reserved name '{name.name}'"
          name.location)) ∧
      (∀ dimensions, (Evaluator.ofBudget n).dim name dimensions =
        Run.raise (.plain s!"Cannot assign a value to reserved name '{name.name}'"
          name.location)) ∧
      (∀ body, Run.declare name body =
        Run.raise (.plain s!"Cannot create a named function with reserved name '{name.name}'"
          name.location)) ∧
      (Text.fold name.name ≠ "line_num" → ∀ (op : IncrementOp) (location : Location)
        (s t : Session), s.locals.Unreserved → s.scopes.SharesFunctions →
          (Evaluator.ofBudget n).increment (.reference name) op location s ≠ .done () t)) ∧
    (∀ (items : List PrintItem) (s t : Session), s.locals.Unreserved →
      ((Evaluator.ofBudget n).print items s).state? = some t → t.locals = s.locals) := by
  have hcheck (s : Session) : Discipline.unreserved.Ok s ↔
      s.locals.Unreserved ∧ s.scopes.SharesFunctions := Discipline.ok_unreserved
  refine ⟨Discipline.upholds hcheck otherwise n, ?_, ?_, ?_, ?_⟩
  · intro options
    show (Session.new options).scopes.active.locals.Unreserved
    rw [Session.locals_new]
    exact Bindings.unreserved_empty
  · intro P s hs
    refine ⟨⟨hs.unreserved, hs.sharesFunctions⟩, fun stop _ statements t ht => ?_⟩
    have hgrows := Evaluator.growsTo_halted ht
    exact ⟨hgrows.unreserved hs.unreserved, hgrows.sharesFunctions hs.sharesFunctions⟩
  · intro name hname
    refine ⟨?_, ?_, ?_, ?_⟩
    · exact fun value => Run.rejectReserved_bind hname _ _
    · exact fun dimensions => Run.rejectReserved_bind hname _ _
    · exact fun body => Run.rejectReserved_bind hname _ _
    · intro hline op location s t hlocals hshared
      exact Evaluator.increment_reserved hname hline op location
        (Discipline.ok_unreserved.2 ⟨hlocals, hshared⟩) t
  · exact fun items s t hs ht => Evaluator.locals_of_print_unreserved hs ht

/-- `for each tab in [1]`. -/
def walkedTab : Statement :=
  .forEach ⟨"tab", .builtin⟩ (.arrayLiteral [.literal (.integer 1) .builtin] .builtin)
    ⟨[], .builtin⟩ .builtin

/-- Loops over the elements of an array, handlers of errors, steps from the current line and
parameters bind reserved names, and a `print` then takes the variable away. -/
theorem reserved_names_bound :
    (∀ st ∈ [walkedTab,
        .tryCatch ⟨[.throwing (.literal (.string "x") .builtin) .builtin], .builtin⟩
          ⟨"pos", .builtin⟩ ⟨[], .builtin⟩ .builtin,
        .increment (.reference ⟨"line_num", .builtin⟩) .increment .builtin],
      ∃ t, (Session.new { Options.standard with entryPoint := false }).exec 6 [st] [] =
        some (.ok ⟨.invalid, .completed⟩, t) ∧ ¬ t.locals.Unreserved) ∧
    (∃ t, (Evaluator.ofBudget 2).bindParameters [⟨⟨"run", .builtin⟩, .dynamic, none⟩]
      [.integer 1] (.new .standard) = .done () t ∧ ¬ t.locals.Unreserved) ∧
    ∃ t u, execute 6 walkedTab (.new .standard) = .done () t ∧
      t.locals["tab"]? = some (.integer 1) ∧ (Evaluator.ofBudget 6).print [] t = .done () u ∧
      u.locals["tab"]? = none := by
  refine ⟨?_, ⟨_, rfl, ?_⟩, ?_⟩
  · intro st hst
    obtain rfl | rfl | rfl : st = _ ∨ st = _ ∨ st = _ := by simpa using hst
    · exact ⟨_, rfl, fun h => h "tab" (by decide) Std.ExtTreeMap.mem_insert_self⟩
    · exact ⟨_, rfl, fun h => h "pos" (by decide) Std.ExtTreeMap.mem_insert_self⟩
    · exact ⟨_, rfl, fun h => h "line_num" (by decide) Std.ExtTreeMap.mem_insert_self⟩
  · exact fun h => h "run" (by decide) Std.ExtTreeMap.mem_insert_self
  · obtain ⟨t, ht, htab⟩ : ∃ t, execute 6 walkedTab (.new .standard) = .done () t ∧
        t.locals["tab"]? = some (.integer 1) := ⟨_, rfl, Std.ExtTreeMap.getElem?_insert_self⟩
    obtain ⟨u, hu⟩ : ∃ u, (Evaluator.ofBudget 6).print [] t = .done () u := ⟨_, rfl⟩
    refine ⟨t, u, ht, htab, hu, ?_⟩
    rw [Evaluator.locals_of_print (congrArg Outcome.state? hu)]
    exact if_pos (.inl rfl)

/-- `for each item in [1]`, with an assignment in it. -/
def walkedItem : Statement :=
  .forEach ⟨"item", .builtin⟩ (.arrayLiteral [.literal (.integer 1) .builtin] .builtin)
    ⟨[.assignment ⟨"a", .builtin⟩ (.literal (.integer 1) .builtin) .builtin], .builtin⟩ .builtin

theorem walkedItem_follows : walkedItem.Follows Discipline.unreserved.allows := by
  refine .intro (fun binder name h => ?_) fun block hblock st hst => ?_
  · cases h
    rfl
  · obtain rfl : block = _ := List.mem_singleton.1 hblock
    obtain rfl : st = _ := List.mem_singleton.1 hst
    refine .intro (fun binder name h => ?_) fun block hblock => (by cases hblock)
    cases h
    trivial

theorem reserved_names_of_walkedItem :
    (∃ t, (Session.new { Options.standard with entryPoint := false }).exec 6 [walkedItem] [] =
      some (.ok ⟨.invalid, .completed⟩, t) ∧ t.locals.Unreserved) ∧
    (∃ t, (Evaluator.supervised (fun s => s.locals.Unreserved) (fun _ => Routine.giveUp) 6).call 6
      (.ofDeclaration "f" ⟨"f", [⟨⟨"a", .builtin⟩, .dynamic, none⟩], .void, true,
        ⟨[walkedItem], .builtin⟩, .builtin⟩) [.integer 1] none .builtin .builtin
        (.new .standard) = .done .invalid t) ∧
    ∃ t, (Evaluator.ofBudget 6).print [] (.new .standard) = .done () t ∧ t.locals = ∅ := by
  obtain ⟨⟨-, hcall, hscript⟩, hnew, hbetween, -, hprint⟩ := reserved_names 6 fun _ => Routine.giveUp
  have hshared (options : Options) : (Session.new options).scopes.SharesFunctions :=
    (hbetween (fun _ => True) _ (.new options)).1.2
  have hfollows (st : Statement) (hst : st ∈ [walkedItem]) :
      st.Follows Discipline.unreserved.allows := by
    obtain rfl : st = _ := List.mem_singleton.1 hst
    exact walkedItem_follows
  refine ⟨?_, ?_, ?_⟩
  · obtain ⟨t, ht⟩ : ∃ t, (Session.new { Options.standard with entryPoint := false }).exec 6
        [walkedItem] [] = some (.ok ⟨.invalid, .completed⟩, t) := ⟨_, rfl⟩
    exact ⟨t, ht, hscript _ _ _ _ _ hfollows (hnew _) (hshared _) ht⟩
  · rw [hcall _ _ _ _ _ _ _ _ rfl ?_ hfollows (hshared _)]
    · exact ⟨_, rfl⟩
    · intro p hp
      obtain rfl : p = _ := List.mem_singleton.1 hp
      rfl
  · obtain ⟨t, ht⟩ : ∃ t, (Evaluator.ofBudget 6).print [] (.new .standard) = .done () t := ⟨_, rfl⟩
    refine ⟨t, ht, ?_⟩
    rw [hprint [] _ t (hnew _) (congrArg Outcome.state? ht)]
    exact Session.locals_new .standard

end BrightScript
